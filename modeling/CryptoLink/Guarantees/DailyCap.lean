import CryptoLink.Marketing.Sequences
import Mathlib

/-!
# The daily cap

One worker sends at most as many emails a day as the limit says, whichever
campaigns and sequences it serves, and the row of the day has their number. An
email belongs to the day under which it is counted, right after it was sent.
-/

namespace CryptoLink

namespace Marketing

open KeyedTables ReadCommitted StatementPrograms Marketing.World

/-- The quota date that is counted first. -/
def firstCounted : List LogEntry → Option Int
  | [] => none
  | .sent _ :: rest => firstCounted rest
  | .counted d :: _ => some d

/-- The emails of a day: those after which that day is counted first. -/
def emailsOf (d : Int) : List LogEntry → Int
  | [] => 0
  | .sent _ :: rest => (if firstCounted rest = some d then 1 else 0) + emailsOf d rest
  | .counted _ :: rest => emailsOf d rest

/-- The emails after which no day has been counted yet. -/
def uncounted : List LogEntry → Int
  | [] => 0
  | .sent _ :: rest => (if firstCounted rest = none then 1 else 0) + uncounted rest
  | .counted _ :: rest => uncounted rest

theorem firstCounted_append (xs ys : List LogEntry) :
    firstCounted (xs ++ ys) = (firstCounted xs).or (firstCounted ys) := by
  induction xs with
  | nil => rfl
  | cons x xs ih =>
    cases x with
    | sent email => exact ih
    | counted d => rfl

theorem emailsOf_sent (d : Int) (log : List LogEntry) (email : Email) :
    emailsOf d (log ++ [.sent email]) = emailsOf d log := by
  induction log with
  | nil => simp [emailsOf, firstCounted]
  | cons x log ih =>
    cases x with
    | sent e =>
      have hfirst : firstCounted (log ++ [.sent email]) = firstCounted log := by
        rw [firstCounted_append]
        exact Option.or_none
      simp only [List.cons_append, emailsOf, hfirst, ih]
    | counted d' => exact ih

theorem emailsOf_counted (d d' : Int) (log : List LogEntry) :
    emailsOf d (log ++ [.counted d']) = emailsOf d log + if d' = d then uncounted log else 0 := by
  induction log with
  | nil => simp [emailsOf, uncounted]
  | cons x log ih =>
    cases x with
    | sent e =>
      simp only [List.cons_append, emailsOf, uncounted, ih, firstCounted_append]
      cases firstCounted log with
      | none =>
        by_cases hd : d' = d
        · simp only [firstCounted, hd, if_true, Option.none_or, reduceCtorEq, if_false]
          omega
        · simp [firstCounted, hd]
      | some d'' =>
        by_cases hfirst : some d'' = some d
        · simp only [Option.some_or, hfirst, if_true, reduceCtorEq, if_false]
          omega
        · simp only [Option.some_or, hfirst, reduceCtorEq, if_false]
          omega
    | counted d'' => exact ih

theorem uncounted_sent (log : List LogEntry) (email : Email) :
    uncounted (log ++ [.sent email]) = uncounted log + 1 := by
  induction log with
  | nil => simp [uncounted, firstCounted]
  | cons x log ih =>
    cases x with
    | sent e =>
      have hfirst : firstCounted (log ++ [.sent email]) = firstCounted log := by
        rw [firstCounted_append]
        exact Option.or_none
      simp only [List.cons_append, uncounted, hfirst, ih]
      omega
    | counted d' => exact ih

theorem uncounted_counted (log : List LogEntry) (d : Int) :
    uncounted (log ++ [.counted d]) = 0 := by
  induction log with
  | nil => rfl
  | cons x log ih =>
    cases x with
    | sent e =>
      have hfirst : firstCounted (log ++ [.counted d]) ≠ none := by
        rw [firstCounted_append]
        cases firstCounted log <;> simp [firstCounted]
      simp only [List.cons_append, uncounted, if_neg hfirst, ih]
      rfl
    | counted d' => exact ih

/-- 17 hours after midnight the day of the quota begins. -/
theorem Zone.quotaDate_eq (z : Zone) (t : Int) :
    z.quotaDate t = (t + z.offset t - 17 * hour) / day := by
  rw [Zone.quotaDate]
  generalize t + z.offset t = clock
  by_cases hearly : clock % day / hour < 17
  · simp only [if_pos hearly]
    simp only [hour, day] at hearly ⊢
    omega
  · simp only [if_neg hearly]
    simp only [hour, day] at hearly ⊢
    omega

theorem Zone.quotaDate_step (z : Zone) (t : Int) : z.quotaDate (t - 1) ≤ z.quotaDate t := by
  have hbefore := z.bounds (t - 1)
  have hafter := z.bounds t
  rw [z.quotaDate_eq, z.quotaDate_eq]
  by_cases hsame : z.offset t = z.offset (t - 1)
  · rw [hsame]
    simp only [hour, day]
    omega
  · have hone := z.changes t hsame
    simp only [hour, day] at hone hbefore hafter ⊢
    omega

theorem Zone.quotaDate_mono (z : Zone) : Monotone z.quotaDate := by
  apply monotone_int_of_le_succ
  intro t
  have hstep := z.quotaDate_step (t + 1)
  rwa [Int.add_sub_cancel] at hstep

/-- Ticks, one after the other. -/
def Mailer.worker (s : Mailer) : ℕ → MarketingCall Unit
  | 0 => pure ()
  | n + 1 => do
      s.tick
      Mailer.worker s n

/-- Time passes, and others change every table but the quota and the limit. -/
structure Around (w w' : World) : Prop where
  clock : w.clock ≤ w'.clock
  quotas : w'.quotas = w.quotas
  dailyLimit : w'.dailyLimit = w.dailyLimit
  log : w'.log = w.log

def sentCount (d : Int) (w : World) : Int :=
  match w.quotas.get d with
  | none => 0
  | some q => q.sentCount

theorem sentCount_of_row {d : Int} {w : World} {q : Quota} (h : w.quotas.get d = some q) :
    sentCount d w = q.sentCount := by
  rw [sentCount, h]

theorem sentCount_of_none {d : Int} {w : World} (h : w.quotas.get d = none) :
    sentCount d w = 0 := by
  rw [sentCount, h]

def limitOf (w : World) : Int :=
  match w.dailyLimit with
  | some limit => limit
  | none => dailyMarketingLimit

/-- No day has more emails than the limit, and the row of a day has their number. -/
def Capped (limit : Int) (w : World) : Prop :=
  ∀ d, emailsOf d w.log ≤ limit ∧ emailsOf d w.log = sentCount d w

/-- Every statement succeeds and leaves the days capped. -/
def around (limit : Int) : Setting (Cmd Stmt) (Answer Reply) World where
  rely := Around
  does c w r w' := ∃ env : Env, env.fate = .done ∧
    engine.perform c env ⟨w, .idle⟩ = (r, ⟨w', .idle⟩)
  guar _ _ _ w' := Capped limit w'
  rely_refl _ := ⟨le_rfl, rfl, rfl, rfl⟩
  rely_trans h h' := ⟨h.clock.trans h'.clock, h'.quotas.trans h.quotas,
    h'.dailyLimit.trans h.dailyLimit, h'.log.trans h.log⟩

structure Calm (w w' : World) : Prop where
  clock : w.clock ≤ w'.clock
  counts : ∀ d, sentCount d w' = sentCount d w
  dailyLimit : w'.dailyLimit = w.dailyLimit
  log : w'.log = w.log

theorem Around.calm {w w' : World} (h : Around w w') : Calm w w' := by
  refine ⟨h.clock, fun d => ?_, h.dailyLimit, h.log⟩
  rw [sentCount, h.quotas, sentCount]

def Quiet (st : Stmt) : Prop := ∀ env w, Calm w (World.effect st env w)

theorem quiet_of_frame {st : Stmt} (h : ∀ env w, (World.effect st env w).clock = w.clock ∧
    (World.effect st env w).quotas = w.quotas ∧
    (World.effect st env w).dailyLimit = w.dailyLimit ∧
    (World.effect st env w).log = w.log) : Quiet st := by
  intro env w
  obtain ⟨hclock, hquotas, hlimit, hlog⟩ := h env w
  exact Around.calm ⟨hclock.ge, hquotas, hlimit, hlog⟩

theorem sentCount_insert (d qd limit : Int) (t : Table Int Quota Quota.quotaDate) (w : World) :
    sentCount d { w with quotas := t.insert ⟨qd, 0, limit⟩ } = sentCount d
      { w with quotas := t } := by
  simp only [sentCount]
  by_cases hd : d = qd
  · subst hd
    cases hget : t.get d with
    | none =>
      rw [Table.get_insert_self t (r := ⟨d, 0, limit⟩) hget]
    | some q => rw [Table.insert_of_taken t (r := ⟨d, 0, limit⟩) hget, hget]
  · rw [Table.get_insert_of_ne t (r := ⟨qd, 0, limit⟩) hd]

theorem quiet_createQuota (qd limit : Int) : Quiet (.createQuota qd limit) := by
  intro env w
  exact ⟨le_rfl, fun d => sentCount_insert d qd limit w.quotas w, rfl, rfl⟩

theorem quiet_issueToken (email token : String) : Quiet (.issueToken email token) := by
  apply quiet_of_frame
  intro env w
  simp only [World.effect]
  split <;> exact ⟨rfl, rfl, rfl, rfl⟩

/-- Most statements are about other tables. -/
theorem quiet_other {st : Stmt} (h : ∀ email, st ≠ .sendEmail email)
    (h' : ∀ qd limit, st ≠ .countQuota qd limit) : Quiet st := by
  cases st with
  | sendEmail email => exact absurd rfl (h email)
  | countQuota qd limit => exact absurd rfl (h' qd limit)
  | createQuota qd limit => exact quiet_createQuota qd limit
  | issueToken email token => exact quiet_issueToken email token
  | insertRecipient campaignID email =>
    apply quiet_of_frame
    intro env w
    simp only [World.effect]
    split <;> exact ⟨rfl, rfl, rfl, rfl⟩
  | upsertContact p =>
    apply quiet_of_frame
    intro env w
    simp only [World.effect]
    split <;> exact ⟨rfl, rfl, rfl, rfl⟩
  | _ => exact quiet_of_frame fun _ _ => ⟨rfl, rfl, rfl, rfl⟩

/-- What the worker knows between its statements, and that it is enough. -/
structure Steady (limit : Int) (P : World → Prop) : Prop where
  calm : ∀ w w', Calm w w' → P w → P w'
  capped : ∀ w, P w → Capped limit w

section Rules

variable {limit : Int} {P : World → Prop} {α : Type} {R : Except Err α → World → Prop}

theorem meets_effect {st : Stmt} {f : Reply st → MarketingCall α} {w : World}
    (hP : Steady limit P) (hw : P w)
    (hnext : ∀ (env : Env) u, env.fate = .done → P u → Capped limit (World.effect st env u) ∧
      Meets (around limit) R (f (World.answer env u st)) (World.effect st env u)) :
    Meets (around limit) R ((query st).bind f) w := by
  refine Meets.ask_kept (fun u v hrely => hP.calm u v hrely.calm) hw ?_
  rintro u r v hu ⟨env, hdone, hperform⟩
  have heffect : engine.autocommit st env u = World.effect st env u := by
    rw [autocommit_eq, hdone]
    rfl
  cases hperform
  show _ ∧ Meets _ R (f (World.answer env u st)) (engine.autocommit st env u)
  rw [heffect]
  exact hnext env u hdone hu

/-- The answer is from a world `u`, and the worker goes on in `v`. -/
theorem meets_quiet {st : Stmt} {f : Reply st → MarketingCall α} {w : World}
    (hst : Quiet st) (hP : Steady limit P) (hw : P w)
    (hnext : ∀ (env : Env) u v, env.fate = .done → P u → P v → Calm u v →
      Meets (around limit) R (f (World.answer env u st)) v) :
    Meets (around limit) R ((query st).bind f) w := by
  apply meets_effect hP hw
  intro env u hdone hu
  have hcalm := hst env u
  have hv := hP.calm u _ hcalm hu
  exact ⟨hP.capped _ hv, hnext env u _ hdone hu hv hcalm⟩

def IsQuiet (c : Cmd Stmt) : Prop := ∃ st, c = .stmt .pool st ∧ Quiet st

theorem isQuiet {st : Stmt} (h : ∀ email, st ≠ .sendEmail email := by intros; simp)
    (h' : ∀ qd limit, st ≠ .countQuota qd limit := by intros; simp) :
    IsQuiet (.stmt .pool st) :=
  ⟨st, rfl, quiet_other h h'⟩

theorem meets_of_quiet {p : MarketingCall α} {w : World} (hp : Issues IsQuiet p)
    (hP : Steady limit P) (hw : P w) : Meets (around limit) (fun _ => P) p w := by
  refine Meets.of_issues (fun u v hrely hu => hP.calm u v hrely.calm hu) ?_ hp hw
  rintro _ u r v ⟨st, rfl, hst⟩ hu ⟨env, hdone, hperform⟩
  have heffect : engine.autocommit st env u = World.effect st env u := by
    rw [autocommit_eq, hdone]
    rfl
  cases hperform
  have hv : P (engine.autocommit st env u) := by
    rw [heffect]
    exact hP.calm u _ (hst env u) hu
  exact ⟨hP.capped _ hv, hv⟩

end Rules

/-- The rows have the numbers of the emails counted, `pending` more are sent, and
nothing is counted ahead of time. -/
structure Books (z : Zone) (limit pending : Int) (w : World) : Prop where
  limit_eq : limitOf w = limit
  pending_eq : uncounted w.log = pending
  counts : ∀ d, emailsOf d w.log = sentCount d w
  bounds : ∀ d, 0 ≤ sentCount d w ∧ sentCount d w ≤ limit
  future : ∀ d, z.quotaDate w.clock < d → sentCount d w = 0

/-- There is room for `r` more emails on every day from `since` on. -/
structure Budget (z : Zone) (limit since pending r : Int) (w : World) : Prop extends
    Books z limit pending w where
  begun : since ≤ z.quotaDate w.clock
  room : ∀ d, since ≤ d → sentCount d w + r ≤ limit

variable {z : Zone} {limit since pending r : Int} {w : World}

theorem limitOf_calm {w' : World} (h : Calm w w') : limitOf w' = limitOf w := by
  rw [limitOf, h.dailyLimit, limitOf]

theorem Books.calm {w' : World} (h : Books z limit pending w) (hcalm : Calm w w') :
    Books z limit pending w' := by
  have hdays : z.quotaDate w.clock ≤ z.quotaDate w'.clock := z.quotaDate_mono hcalm.clock
  constructor
  · exact (limitOf_calm hcalm).trans h.limit_eq
  · rw [hcalm.log]
    exact h.pending_eq
  · intro d
    rw [hcalm.log, hcalm.counts]
    exact h.counts d
  · intro d
    rw [hcalm.counts]
    exact h.bounds d
  · intro d hd
    rw [hcalm.counts]
    exact h.future d (by omega)

theorem Books.capped (h : Books z limit pending w) : Capped limit w := by
  intro d
  refine ⟨?_, h.counts d⟩
  rw [h.counts d]
  exact (h.bounds d).2

theorem steady_books : Steady limit (Books z limit pending) :=
  ⟨fun _ _ hcalm h => h.calm hcalm, fun _ h => h.capped⟩

theorem Budget.calm {w' : World} (h : Budget z limit since pending r w) (hcalm : Calm w w') :
    Budget z limit since pending r w' := by
  refine ⟨h.toBooks.calm hcalm, h.begun.trans (z.quotaDate_mono hcalm.clock), ?_⟩
  intro d hd
  rw [hcalm.counts]
  exact h.room d hd

theorem steady_budget : Steady limit (Budget z limit since pending r) :=
  ⟨fun _ _ hcalm h => h.calm hcalm, fun _ h => h.toBooks.capped⟩

theorem Budget.mono {r' : Int} (h : Budget z limit since pending r w) (hr : r' ≤ r) :
    Budget z limit since pending r' w := by
  refine ⟨h.toBooks, h.begun, ?_⟩
  intro d hd
  have hroom := h.room d hd
  omega

theorem sentCount_counted (d qd l : Int) (env : Env) (w : World) :
    sentCount d (World.effect (.countQuota qd l) env w) =
      sentCount d w + if d = qd then 1 else 0 := by
  have hinserted := sentCount_insert d qd l w.quotas w
  simp only [sentCount] at hinserted
  simp only [World.effect, sentCount]
  by_cases hd : d = qd
  · subst hd
    rw [Table.get_modify_self, if_pos rfl, ← hinserted]
    have hsome : ((w.quotas.insert ⟨d, 0, l⟩).get d).isSome = true := by
      cases hget : w.quotas.get d with
      | none => rw [Table.get_insert_self w.quotas (r := ⟨d, 0, l⟩) hget]; rfl
      | some q => rw [Table.insert_of_taken w.quotas (r := ⟨d, 0, l⟩) hget, hget]; rfl
    obtain ⟨q, hq⟩ := Option.isSome_iff_exists.mp hsome
    rw [hq]
    rfl
  · rw [Table.get_modify_of_ne _ _ _ hd, if_neg hd, Int.add_zero]
    exact hinserted

/-- An email that is sent takes up room once it is counted under a day that has begun. -/
theorem Budget.counted {qd : Int} (h : Budget z limit since 1 r w) (hr : 1 ≤ r)
    (hsince : since ≤ qd) (hqd : qd ≤ z.quotaDate w.clock) (l : Int) (env : Env) :
    Budget z limit since 0 (r - 1) (World.effect (.countQuota qd l) env w) := by
  have hlog : (World.effect (.countQuota qd l) env w).log = w.log ++ [.counted qd] := rfl
  constructor
  · constructor
    · exact h.limit_eq
    · rw [hlog]
      exact uncounted_counted w.log qd
    · intro d
      rw [hlog, emailsOf_counted, h.pending_eq, h.counts d, sentCount_counted]
      by_cases hd : d = qd
      · rw [if_pos hd.symm, if_pos hd]
      · rw [if_neg (Ne.symm hd), if_neg hd]
    · intro d
      have hbounds := h.bounds d
      rw [sentCount_counted]
      by_cases hd : d = qd
      · have hroom := h.room d (by omega)
        rw [if_pos hd]
        omega
      · rw [if_neg hd]
        omega
    · intro d hd
      have hlater : z.quotaDate w.clock < d := hd
      rw [sentCount_counted, if_neg (by omega), h.future d hlater]
      rfl
  · exact h.begun
  · intro d hd
    have hroom := h.room d hd
    rw [sentCount_counted]
    by_cases hsame : d = qd
    · rw [if_pos hsame]
      omega
    · rw [if_neg hsame]
      omega

variable (s : Mailer)

theorem meets_effectiveDailyLimit {P : World → Prop} {α : Type}
    {R : Except Err α → World → Prop} {f : Int → MarketingCall α} (hP : Steady limit P)
    (hlimit : ∀ w, P w → limitOf w = limit) (hw : P w)
    (hnext : ∀ v, P v → Meets (around limit) R (f limit) v) :
    Meets (around limit) R (effectiveDailyLimit.bind f) w := by
  rw [effectiveDailyLimit, Prog.bind_eq, Prog.bind_assoc]
  apply meets_quiet (quiet_other (by simp) (by simp)) hP hw
  intro env u v hdone hu hv _
  have hread := hlimit u hu
  have hanswer : World.answer env u .getSettings = noRows (u.dailyLimit.map Subtype.val) :=
    answered_done hdone _ _
  rw [hanswer]
  rw [limitOf] at hread
  cases hsettings : u.dailyLimit with
  | none =>
    rw [hsettings] at hread
    rw [← hread] at hnext ⊢
    exact hnext v hv
  | some l =>
    rw [hsettings] at hread
    rw [← hread] at hnext ⊢
    exact hnext v hv

theorem meets_incrementQuota (h : Budget s.zone limit since 1 r w) (hr : 1 ≤ r) :
    Meets (around limit) (fun _ => Budget s.zone limit since 0 (r - 1)) s.incrementQuota w := by
  apply meets_quiet (quiet_other (by simp) (by simp)) steady_budget h
  intro env u v _ hu hv hcalm
  -- the day was read at an instant that has passed
  have hsteady : Steady limit fun w => Budget s.zone limit since 1 r w ∧
      s.zone.quotaDate u.clock ≤ s.zone.quotaDate w.clock := by
    refine ⟨?_, fun w hw => hw.1.toBooks.capped⟩
    intro w w' hc hw
    exact ⟨hw.1.calm hc, hw.2.trans (s.zone.quotaDate_mono hc.clock)⟩
  have hdays := s.zone.quotaDate_mono hcalm.clock
  apply meets_effectiveDailyLimit hsteady (fun w hw => hw.1.limit_eq) ⟨hv, hdays⟩
  intro v' hv'
  apply meets_effect hsteady hv'
  intro env' u' _ hu'
  have hdone := hu'.1.counted hr hu.begun hu'.2 limit env'
  refine ⟨hdone.toBooks.capped, ?_⟩
  exact fun w' hrely => hdone.calm hrely.calm

/-- What is left after an email was sent, or was not. -/
def leftOf (r : Int) (sent : Bool) : Int := if sent then r - 1 else r

theorem Budget.sent (h : Budget z limit since 0 r w) (email : Email) :
    Budget z limit since 1 r { w with log := w.log ++ [.sent email] } := by
  constructor
  · constructor
    · exact h.limit_eq
    · show uncounted (w.log ++ [.sent email]) = 1
      rw [uncounted_sent, h.pending_eq]
      rfl
    · intro d
      show emailsOf d (w.log ++ [.sent email]) = sentCount d w
      rw [emailsOf_sent]
      exact h.counts d
    · exact h.bounds
    · exact h.future
  · exact h.begun
  · exact h.room

/-- An email is in the log exactly if the service says so. -/
theorem meets_sendEmail {α : Type} {R : Except Err α → World → Prop} {email : Email}
    {f : Except Err Unit → MarketingCall α} (h : Budget z limit since 0 r w)
    (hsent : ∀ v, Budget z limit since 1 r v → Meets (around limit) R (f (.ok ())) v)
    (hfailed : ∀ e v, Budget z limit since 0 r v → Meets (around limit) R (f (.error e)) v) :
    Meets (around limit) R ((query (.sendEmail email)).bind f) w := by
  apply meets_effect steady_budget h
  intro env u hdone hu
  have hanswer : World.answer env u (.sendEmail email) = env.delivery :=
    answered_done hdone _ _
  rw [hanswer]
  cases hdelivery : env.delivery with
  | ok _ =>
    have heffect : World.effect (.sendEmail email) env u =
        { u with log := u.log ++ [.sent email] } := by
      simp only [World.effect, hdelivery, Except.isOk, Except.toBool, if_true]
    rw [heffect]
    exact ⟨(hu.sent email).toBooks.capped, hsent _ (hu.sent email)⟩
  | error e =>
    have heffect : World.effect (.sendEmail email) env u = u := by
      simp [World.effect, hdelivery, Except.isOk, Except.toBool]
    rw [heffect]
    exact ⟨hu.toBooks.capped, hfailed e u hu⟩

/-- Nothing is uncounted where the worker stops. -/
def Outcome (limit : Int) (s : Mailer) {α : Type} (Q : α → World → Prop) :
    Except Err α → World → Prop
  | .ok a, w => Q a w
  | .error _, w => Books s.zone limit 0 w

theorem meets_sendToRecipient (c : Campaign) (rec : Recipient)
    (h : Budget s.zone limit since 0 r w) (hr : 1 ≤ r) :
    Meets (around limit)
      (Outcome limit s fun sent => Budget s.zone limit since 0 (leftOf r sent))
      (s.sendToRecipient c rec) w := by
  apply meets_quiet (quiet_other (by simp) (by simp)) steady_budget h
  intro _ _ v _ _ hv _
  apply meets_quiet (quiet_other (by simp) (by simp)) steady_budget hv
  intro _ _ v _ _ hv _
  apply Meets.ofExcept_bind
  · intro body _
    apply meets_sendEmail hv
    · intro v hv
      apply meets_quiet (quiet_other (by simp) (by simp)) steady_budget hv
      intro _ _ v _ _ hv _
      apply meets_quiet (quiet_other (by simp) (by simp)) steady_budget hv
      intro _ _ v _ _ hv _
      apply meets_quiet (quiet_other (by simp) (by simp)) steady_budget hv
      intro _ _ v _ _ hv _
      refine Meets.bind ((meets_incrementQuota s hv hr).mono ?_)
      intro x v hv
      cases x with
      | ok _ => exact fun v' hrely => hv.calm hrely.calm
      | error e => exact hv.toBooks
    · intro e v hv
      apply meets_quiet (quiet_other (by simp) (by simp)) steady_budget hv
      intro _ _ v _ _ hv _
      apply meets_quiet (quiet_other (by simp) (by simp)) steady_budget hv
      intro _ _ v _ _ hv _
      apply meets_quiet (quiet_other (by simp) (by simp)) steady_budget hv
      intro _ _ v _ _ hv _
      exact fun v' hrely => hv.calm hrely.calm
  · intro e _ v' hrely
    exact hv.toBooks.calm hrely.calm

theorem meets_sendToRecipients (c : Campaign) (recipients : List Recipient)
    (h : Budget s.zone limit since 0 r w) :
    Meets (around limit) (Outcome limit s fun left => Budget s.zone limit since 0 left)
      (s.sendToRecipients c recipients r) w := by
  induction recipients generalizing r w with
  | nil => exact fun w' hrely => h.calm hrely.calm
  | cons rec rest ih =>
    rw [Mailer.sendToRecipients]
    split
    · exact fun w' hrely => h.calm hrely.calm
    · refine Meets.bind ((meets_sendToRecipient s c rec h (by omega)).mono ?_)
      intro x v hv
      cases x with
      | ok sent => exact ih hv
      | error e => exact hv

theorem meets_completeCampaign {P : World → Prop} (hP : Steady limit P) (id : Int) (hw : P w) :
    Meets (around limit) (fun _ => P) (Mailer.completeCampaign id) w := by
  refine meets_of_quiet ?_ hP hw
  exact ⟨isQuiet, fun _ => ⟨isQuiet, fun _ => .ret ()⟩⟩

theorem meets_sendCampaigns (campaigns : List Campaign) (h : Budget s.zone limit since 0 r w) :
    Meets (around limit) (fun _ => Books s.zone limit 0) (s.sendCampaigns campaigns r) w := by
  induction campaigns generalizing r w with
  | nil => exact fun w' hrely => (h.calm hrely.calm).toBooks
  | cons c rest ih =>
    rw [Mailer.sendCampaigns]
    split
    · exact fun w' hrely => (h.calm hrely.calm).toBooks
    · apply meets_quiet (quiet_other (by simp) (by simp)) steady_budget h
      intro env u v _ _ hv _
      cases World.answer env u (.pendingRecipients c.id (if r > 10 then 10 else r)) with
      | error e => exact ih hv
      | ok recipients =>
        show Meets _ _ (if recipients.isEmpty = true then _ else _) v
        split
        · exact Meets.seq (meets_completeCampaign steady_budget c.id hv) (fun _ _ => ih)
            fun _ _ ht => ht.toBooks
        · refine Meets.bind ((meets_sendToRecipients s c recipients hv).mono ?_)
          intro x v hv
          cases x with
          | ok left => exact ih hv
          | error e => exact hv

/-- Under day `qd` there are `n` emails so far, and none under a later day. -/
structure Seen (z : Zone) (limit qd n : Int) (w : World) : Prop extends Books z limit 0 w where
  begun : qd ≤ z.quotaDate w.clock
  seen : sentCount qd w = n
  later : ∀ d, qd < d → sentCount d w = 0

theorem steady_seen {qd n : Int} : Steady limit (Seen z limit qd n) := by
  refine ⟨?_, fun w hw => hw.toBooks.capped⟩
  intro w w' hc hw
  refine ⟨hw.toBooks.calm hc, hw.begun.trans (z.quotaDate_mono hc.clock), ?_, ?_⟩
  · rw [hc.counts]
    exact hw.seen
  · intro d hd
    rw [hc.counts]
    exact hw.later d hd

theorem Seen.budget {qd n : Int} (h : Seen z limit qd n w) (hr : n + r ≤ limit) :
    Budget z limit qd 0 r w := by
  refine ⟨h.toBooks, h.begun, ?_⟩
  intro d hd
  have hbounds := h.bounds qd
  have hseen := h.seen
  by_cases hsame : d = qd
  · rw [hsame, hseen]
    exact hr
  · rw [h.later d (by omega)]
    omega

theorem meets_getRemainingQuota (h : Books s.zone limit 0 w) :
    Meets (around limit)
      (Outcome limit s fun left w' => ∃ since, Budget s.zone limit since 0 left w')
      s.getRemainingQuota w := by
  apply meets_quiet (quiet_other (by simp) (by simp)) steady_books h
  intro env u v _ hu hv hcalm
  have hseen : Seen s.zone limit (s.zone.quotaDate (World.answer env u .timeNow))
      (sentCount (s.zone.quotaDate (World.answer env u .timeNow)) v) v := by
    refine ⟨hv, s.zone.quotaDate_mono hcalm.clock, rfl, ?_⟩
    intro d hd
    rw [hcalm.counts]
    exact hu.future d hd
  generalize s.zone.quotaDate (World.answer env u .timeNow) = qd at hseen ⊢
  apply meets_quiet (quiet_other (by simp) (by simp)) steady_seen hseen
  intro env u v' hdone hu hv' _
  have hanswer : World.answer env u (.getQuota qd) = noRows (u.quotas.get qd) :=
    answered_done hdone _ _
  have hcount := hu.seen
  rw [hanswer]
  cases hget : u.quotas.get qd with
  | some q =>
    rw [sentCount_of_row hget] at hcount
    apply meets_effectiveDailyLimit steady_seen (fun w hw => hw.limit_eq) hv'
    intro v'' hv'' w' hrely
    have hend := steady_seen.calm _ _ hrely.calm hv''
    refine ⟨qd, hend.budget ?_⟩
    split <;> omega
  | none =>
    rw [sentCount_of_none hget] at hcount
    apply meets_effectiveDailyLimit steady_seen (fun w hw => hw.limit_eq) hv'
    intro v'' hv''
    apply meets_quiet (quiet_other (by simp) (by simp)) steady_seen hv''
    intro env' u' v3 hdone' _ hv3 _
    have hcreated : World.answer env' u' (.createQuota qd limit) = .ok () :=
      answered_done hdone' _ _
    rw [hcreated]
    intro w' hrely
    have hend := steady_seen.calm _ _ hrely.calm hv3
    exact ⟨qd, hend.budget (by omega)⟩

theorem meets_processQueue (h : Books s.zone limit 0 w) :
    Meets (around limit) (fun _ => Books s.zone limit 0) s.processQueue w := by
  refine Meets.bind (Meets.attempt ((meets_getRemainingQuota s h).mono ?_))
  intro x v hv
  cases x with
  | error e => exact fun v' hrely => hv.calm hrely.calm
  | ok left =>
    obtain ⟨since, hv⟩ := hv
    show Meets _ _ (if left ≤ 0 then _ else _) v
    split
    · exact fun v' hrely => hv.toBooks.calm hrely.calm
    · apply meets_quiet (quiet_other (by simp) (by simp)) steady_budget hv
      intro env u v _ _ hv _
      cases World.answer env u .sendingCampaigns with
      | error e => exact fun v' hrely => hv.toBooks.calm hrely.calm
      | ok campaigns => exact meets_sendCampaigns s campaigns hv

/-- Whatever the outcome, at most one email was sent. -/
theorem outcome_of_budget {α : Type} (x : Except Err α) (h : Budget s.zone limit since 0 r w) :
    Outcome limit s (fun _ => Budget s.zone limit since 0 (r - 1)) x w := by
  cases x with
  | ok a => exact h.mono (by omega)
  | error e => exact h.toBooks

theorem meets_markEnrollmentFailed (id attempts : Int) (err : Err)
    (h : Budget s.zone limit since 0 r w) :
    Meets (around limit) (Outcome limit s fun _ => Budget s.zone limit since 0 (r - 1))
      (markEnrollmentFailed id attempts err) w := by
  refine (meets_of_quiet ?_ steady_budget h).mono fun x _ ht => outcome_of_budget s x ht
  show Issues IsQuiet (if attempts + 1 ≥ maxAttempts then _ else _)
  split
  · exact ⟨isQuiet, fun _ => .ret ()⟩
  · exact ⟨isQuiet, fun _ => .ret ()⟩

theorem issues_maybeCompleteSequence (id : Int) :
    Issues IsQuiet (maybeCompleteSequence id) := by
  refine ⟨isQuiet, fun active => ?_⟩
  cases active with
  | error e => exact .ret ()
  | ok n =>
    show Issues IsQuiet (if n > 0 then _ else _)
    split
    · exact .ret ()
    · exact ⟨isQuiet, fun _ => .ret ()⟩

/-- A sequence may be completed before the email is counted. -/
theorem meets_maybeCompleteSequence {P : World → Prop} {α : Type}
    {R : Except Err α → World → Prop} {f : Unit → MarketingCall α} (hP : Steady limit P)
    (id : Int) (hw : P w) (hnext : ∀ v, P v → Meets (around limit) R (f ()) v) :
    Meets (around limit) R ((maybeCompleteSequence id).bind f) w := by
  rw [maybeCompleteSequence, Prog.bind_eq, Prog.bind_assoc]
  apply meets_quiet (quiet_other (by simp) (by simp)) hP hw
  intro env u v _ _ hv _
  cases World.answer env u (.countActive id) with
  | error e => exact hnext v hv
  | ok n =>
    show Meets _ _ (Prog.bind (if n > 0 then _ else _) f) v
    split
    · exact hnext v hv
    · apply meets_quiet (quiet_other (by simp) (by simp)) hP hv
      intro _ _ v _ _ hv _
      exact hnext v hv

theorem meets_counting (h : Budget s.zone limit since 1 r w) (hr : 1 ≤ r) :
    Meets (around limit) (Outcome limit s fun _ => Budget s.zone limit since 0 (r - 1))
      s.incrementQuota w := by
  refine (meets_incrementQuota s h hr).mono ?_
  intro x v hv
  cases x with
  | ok _ => exact hv
  | error e => exact hv.toBooks

theorem meets_advance (e : Enrollment) (next : Int) (h : Budget s.zone limit since 1 r w)
    (hr : 1 ≤ r) :
    Meets (around limit) (Outcome limit s fun _ => Budget s.zone limit since 0 (r - 1))
      (s.advance e next) w := by
  apply meets_quiet (quiet_other (by simp) (by simp)) steady_budget h
  intro env u v _ _ hv _
  cases World.answer env u (.getStep ⟨e.sequenceID, next + 1⟩) with
  | error err =>
    apply meets_quiet (quiet_other (by simp) (by simp)) steady_budget hv
    intro _ _ v _ _ hv _
    apply meets_maybeCompleteSequence steady_budget e.sequenceID hv
    intro v hv
    exact meets_counting s hv hr
  | ok step =>
    apply meets_quiet (quiet_other (by simp) (by simp)) steady_budget hv
    intro _ _ v _ _ hv _
    apply meets_quiet (quiet_other (by simp) (by simp)) steady_budget hv
    intro _ _ v _ _ hv _
    apply meets_quiet (quiet_other (by simp) (by simp)) steady_budget hv
    intro _ _ v _ _ hv _
    exact meets_counting s hv hr

theorem meets_sendStep (e : Enrollment) (tmpl : EmailTemplate) (step : SequenceStep)
    (h : Budget s.zone limit since 0 r w) (hr : 1 ≤ r) :
    Meets (around limit) (Outcome limit s fun _ => Budget s.zone limit since 0 (r - 1))
      (s.sendStep e tmpl step) w := by
  apply meets_quiet (quiet_other (by simp) (by simp)) steady_budget h
  intro _ _ v _ _ hv _
  apply meets_quiet (quiet_other (by simp) (by simp)) steady_budget hv
  intro _ _ v _ _ hv _
  apply Meets.ofExcept_bind
  · intro body _
    apply meets_sendEmail hv
    · intro v hv
      exact meets_advance s e _ hv hr
    · intro err v hv
      exact meets_markEnrollmentFailed s e.id e.attemptCount err hv
  · intro err _ v' hrely
    exact hv.toBooks.calm hrely.calm

theorem meets_nextStep (e : Enrollment) (h : Budget s.zone limit since 0 r w) (hr : 1 ≤ r) :
    Meets (around limit) (Outcome limit s fun _ => Budget s.zone limit since 0 (r - 1))
      (s.nextStep e) w := by
  apply meets_quiet (quiet_other (by simp) (by simp)) steady_budget h
  intro env u v _ _ hv _
  cases World.answer env u (.getStep ⟨e.sequenceID, e.currentStep + 1⟩) with
  | error err =>
    refine (meets_of_quiet ?_ steady_budget hv).mono fun x _ ht => outcome_of_budget s x ht
    exact ⟨isQuiet, fun _ => issues_maybeCompleteSequence e.sequenceID⟩
  | ok step =>
    dsimp only
    split
    · exact meets_markEnrollmentFailed s e.id e.attemptCount _ hv
    · exact meets_sendStep s e _ step hv hr

theorem meets_processOneEnrollment (e : Enrollment) (skip : Bool)
    (h : Budget s.zone limit since 0 r w) (hr : 1 ≤ r) :
    Meets (around limit) (Outcome limit s fun _ => Budget s.zone limit since 0 (r - 1))
      (s.processOneEnrollment e skip) w := by
  have hclose : ∀ status v, Budget s.zone limit since 0 r v →
      Meets (around limit) (Outcome limit s fun _ => Budget s.zone limit since 0 (r - 1))
        ((query (.closeEnrollment e.id status)).bind fun _ => .ret ()) v := by
    intro status v hv
    refine (meets_of_quiet ?_ steady_budget hv).mono fun x _ ht => outcome_of_budget s x ht
    exact ⟨isQuiet, fun _ => .ret ()⟩
  apply meets_quiet (quiet_other (by simp) (by simp)) steady_budget h
  intro env u v _ _ hv _
  show Meets _ _ (if counted (World.answer env u (.countUnsubscribed e.email)) > 0 then _ else _) v
  split
  · exact hclose _ v hv
  · cases skip with
    | false => exact meets_nextStep s e hv hr
    | true =>
      apply meets_quiet (quiet_other (by simp) (by simp)) steady_budget hv
      intro env u v _ _ hv _
      show Meets _ _ (if counted (World.answer env u (.countConverted e.email)) > 0 then _ else _) v
      split
      · exact hclose _ v hv
      · exact meets_nextStep s e hv hr

theorem meets_each (due : List (Enrollment × Bool)) (h : Budget s.zone limit since 0 r w)
    (hr : (due.length : Int) ≤ r) :
    Meets (around limit) (fun _ => Books s.zone limit 0)
      (Prog.each (fun d => s.processOneEnrollment d.1 d.2) due) w := by
  induction due generalizing r w with
  | nil => exact fun w' hrely => (h.calm hrely.calm).toBooks
  | cons d due ih =>
    rw [List.length_cons, Nat.cast_succ] at hr
    refine Meets.bind ((meets_processOneEnrollment s d.1 d.2 h (by omega)).mono ?_)
    intro x v hv
    cases x with
    | ok _ => exact ih hv (by omega)
    | error e => exact hv

theorem length_dueEnrollments (n : Int) (hn : 0 ≤ n) (w : World) :
    ((w.dueEnrollments n).length : Int) ≤ n := by
  rw [World.dueEnrollments, List.length_map]
  have htake := List.length_take_le n.toNat
    (RankedListings.ranked Enrollment.nextSendAt (w.enrollments.rows.filter w.isDue)).reverse
  omega

theorem meets_processSequenceTick (h : Books s.zone limit 0 w) :
    Meets (around limit) (fun _ => Books s.zone limit 0) s.processSequenceTick w := by
  refine Meets.bind (Meets.attempt ((meets_getRemainingQuota s h).mono ?_))
  intro x v hv
  cases x with
  | error e => exact fun v' hrely => hv.calm hrely.calm
  | ok left =>
    obtain ⟨since, hv⟩ := hv
    show Meets _ _ (if left ≤ 0 then _ else _) v
    split
    · exact fun v' hrely => hv.toBooks.calm hrely.calm
    · rename_i hleft
      apply meets_quiet (quiet_other (by simp) (by simp)) steady_budget hv
      intro env u v hdone _ hv _
      have hanswer : World.answer env u (.dueEnrollments
          (if left > Mailer.batchPerTick then Mailer.batchPerTick else left)) =
          .ok (u.dueEnrollments
            (if left > Mailer.batchPerTick then Mailer.batchPerTick else left)) :=
        answered_done hdone _ _
      rw [hanswer]
      apply meets_each s _ hv
      have hlength := length_dueEnrollments
        (if left > Mailer.batchPerTick then Mailer.batchPerTick else left)
        (by simp only [Mailer.batchPerTick]; omega) u
      simp only [Mailer.batchPerTick] at hlength ⊢
      omega

theorem meets_worker (n : ℕ) (h : Books s.zone limit 0 w) :
    Meets (around limit) (fun _ => Books s.zone limit 0) (s.worker n) w := by
  induction n generalizing w with
  | zero => exact fun w' hrely => h.calm hrely.calm
  | succ n ih =>
    have htick : Meets (around limit) (fun _ => Books s.zone limit 0) s.tick w :=
      Meets.seq (meets_processQueue s h) (fun _ _ ht => meets_processSequenceTick s ht)
        fun _ _ ht => ht
    exact Meets.seq htick (fun _ _ ht => ih ht) fun _ _ ht => ht

/-- Whatever campaigns and sequences there are, whichever emails fail and however
the time passes, no day has more emails than the limit, the row of each day has
their number, and after the ticks every email belongs to a day. -/
theorem daily_cap (s : Mailer) (w : World) (hlog : w.log = [])
    (hzero : ∀ q ∈ w.quotas.rows, q.sentCount = 0) (n : ℕ) :
    Meets (around (limitOf w)) (fun _ w' => uncounted w'.log = 0 ∧ Capped (limitOf w) w')
      (s.worker n) w := by
  have hcount : ∀ d, sentCount d w = 0 := by
    intro d
    cases hget : w.quotas.get d with
    | none => exact sentCount_of_none hget
    | some q =>
      rw [sentCount_of_row hget]
      exact hzero q (Table.get_eq_some hget).1
  have hlimit : 0 ≤ limitOf w := by
    rw [limitOf]
    split
    · rename_i limit _
      have hbounds := limit.property
      omega
    · simp [dailyMarketingLimit]
  have hbooks : Books s.zone (limitOf w) 0 w := by
    refine ⟨rfl, by rw [hlog]; rfl, ?_, ?_, fun d _ => hcount d⟩
    · intro d
      rw [hlog, hcount]
      rfl
    · intro d
      rw [hcount]
      exact ⟨le_rfl, hlimit⟩
  exact (meets_worker s n hbooks).mono fun _ w' hw' => ⟨hw'.pending_eq, hw'.capped⟩

namespace OneCampaign

def mailer : Mailer := ⟨.cet, []⟩

def campaign : Campaign :=
  ⟨1, "c-1", "News", "<body>Hello</body>", .all, .sending, 2, 0, 0, 2, 0, some 0, none⟩

/-- A campaign with two recipients on a day whose row is there. -/
def tables : World :=
  { World.empty with
    campaigns := World.empty.campaigns.insert campaign
    recipients := (World.empty.recipients.insert ⟨1, 1, "a@x.example", .pending, none, none⟩).insert
      ⟨2, 1, "b@x.example", .pending, none, none⟩
    quotas := World.empty.quotas.insert ⟨-1, 0, 200⟩
    dailyLimit := some ⟨50, by omega⟩ }

end OneCampaign

open OneCampaign in
theorem daily_cap_sample :
    tables.log = [] ∧ (∀ q ∈ tables.quotas.rows, q.sentCount = 0) ∧
      Meets (around (limitOf tables))
        (fun _ w' => uncounted w'.log = 0 ∧ Capped (limitOf tables) w') (mailer.worker 2) tables :=
  ⟨rfl, by decide +kernel, daily_cap mailer tables rfl (by decide +kernel) 2⟩

end Marketing

end CryptoLink
