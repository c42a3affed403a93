import CryptoLink.Guarantees.DailyCap
import CryptoLink.Marketing.Calls

/-!
# The steps of a sequence

The worker takes an enrollment one step further, or counts one more failure. Its
own tokens look like unsubscribed addresses to it, so the steps all arrive
where no check of the address finds a token.
-/

namespace CryptoLink

namespace Marketing

namespace Delivery

open KeyedTables ReadCommitted StatementPrograms Marketing.World

/-- The steps of an enrollment that were sent, in order. -/
def sentSteps (id : Int) : List LogEntry → List Int
  | [] => []
  | .counted _ :: rest => sentSteps id rest
  | .sent m :: rest =>
    match m.purpose with
    | .campaign _ => sentSteps id rest
    | .step i k => if i = id then k :: sentSteps id rest else sentSteps id rest

theorem sentSteps_append (id : Int) (xs ys : List LogEntry) :
    sentSteps id (xs ++ ys) = sentSteps id xs ++ sentSteps id ys := by
  induction xs with
  | nil => rfl
  | cons x xs ih =>
    cases x with
    | counted d => exact ih
    | sent m =>
      rw [List.cons_append, sentSteps, sentSteps]
      cases m.purpose with
      | campaign r => exact ih
      | step i k =>
        by_cases hi : i = id
        · simp only [if_pos hi, ih, List.cons_append]
        · simp only [if_neg hi, ih]

/-- `1, 2, …, k` -/
def firstSteps (k : ℕ) : List Int := (List.range k).map fun i : ℕ => (i : Int) + 1

theorem firstSteps_succ (k : ℕ) : firstSteps (k + 1) = firstSteps k ++ [(k : Int) + 1] := by
  rw [firstSteps, List.range_succ, List.map_append]
  rfl

/-- The tables, and what has happened to one enrollment: how often a send of it
failed, and how often it was taken among those due. -/
structure Watch where
  world : World
  failures : ℕ
  taken : ℕ

def isFailure (id : Int) : (c : Cmd Stmt) → Answer Reply c → Bool
  | .stmt _ (.sendEmail m), .error _ =>
    match m.purpose with
    | .step i _ => i = id
    | .campaign _ => false
  | _, _ => false

def isTaken (id : Int) : (c : Cmd Stmt) → Answer Reply c → Bool
  | .stmt _ (.dueEnrollments _), .ok due => due.any fun d => d.1.id = id
  | _, _ => false

def observe (id : Int) (env : Env) (c : Cmd Stmt) (x : Watch) : Answer Reply c × Watch :=
  let out := engine.perform c env ⟨x.world, .idle⟩
  (out.1, ⟨out.2.world, x.failures + if isFailure id c out.1 then 1 else 0,
    x.taken + if isTaken id c out.1 then 1 else 0⟩)

def isActive (id : Int) (w : World) : Bool :=
  match w.enrollments.get id with
  | some e => e.status = .active
  | none => false

/-- Fewer than three sends fail, the address is not that of a merchant, and as
long as the enrollment is active a check of the address meets a table that is `clean`. -/
def Spared (id : Int) (a : String) (clean : World → Prop) (c : Cmd Stmt) (x x' : Watch) : Prop :=
  x'.failures < 3 ∧
  (c = .stmt .pool (.countConverted a) → x.world.countConverted a = 0) ∧
  (c = .stmt .pool (.countUnsubscribed a) → isActive id x.world = true → clean x.world)

/-- What others leave as it is: the enrollment once it is there, the steps of its sequence,
and what was sent for it. -/
structure Beside (id q : Int) (w w' : World) : Prop where
  row : ∀ e, w.enrollments.get id = some e → w'.enrollments.get id = some e
  steps : ∀ k, w'.steps.get ⟨q, k⟩ = w.steps.get ⟨q, k⟩
  sent : sentSteps id w'.log = sentSteps id w.log

theorem Beside.refl (id q : Int) (w : World) : Beside id q w w := ⟨fun _ h => h, fun _ => rfl, rfl⟩

theorem Beside.trans {id q : Int} {u v w : World} (h : Beside id q u v) (h' : Beside id q v w) :
    Beside id q u w :=
  ⟨fun e he => h'.row e (h.row e he), fun k => (h'.steps k).trans (h.steps k),
    h'.sent.trans h.sent⟩

/-- The steps sent are the first ones, and the enrollment is active or completed with all. -/
def InOrder (id : Int) (n : ℕ) (w : World) : Prop :=
  ∃ e k, w.enrollments.get id = some e ∧ sentSteps id w.log = firstSteps k ∧ k ≤ n ∧
    (e.status = .active ∨ e.status = .completed ∧ k = n)

/-- Every step was sent once, and the enrollment is completed. -/
def Delivered (id : Int) (n : ℕ) (w : World) : Prop :=
  ∃ e, w.enrollments.get id = some e ∧ e.status = .completed ∧
    sentSteps id w.log = firstSteps n

/-- Every statement succeeds; emails fail or not. -/
def serving (id q : Int) (a : String) (n : ℕ) (clean : World → Prop) :
    Setting (Cmd Stmt) (Answer Reply) Watch where
  rely x x' := Beside id q x.world x'.world ∧ x'.failures = x.failures ∧ x'.taken = x.taken
  does c x r x' := ∃ env : Env, env.fate = .done ∧ observe id env c x = (r, x') ∧
    Spared id a clean c x x'
  guar _ _ _ x' := InOrder id n x'.world
  rely_refl x := ⟨.refl id q x.world, rfl, rfl⟩
  rely_trans h h' := ⟨h.1.trans h'.1, h'.2.1.trans h.2.1, h'.2.2.trans h.2.2⟩

/-- The sequence has steps `1, …, n` with templates that take a footer. -/
structure HasSteps (s : Mailer) (q : Int) (n : ℕ) (w : World) : Prop where
  step : ∀ k : ℕ, k < n → ∃ step tmpl, w.steps.get ⟨q, k + 1⟩ = some step ∧
    s.getTemplateByID (step.templateID.getD "") = some tmpl ∧
    ∀ token, (injectUnsubscribeFooter tmpl.bodyHTML (unsubLink token)).isOk = true
  last : w.steps.get ⟨q, n + 1⟩ = none

theorem HasSteps.beside {s : Mailer} {id q : Int} {n : ℕ} {w w' : World} (h : HasSteps s q n w)
    (hb : Beside id q w w') : HasSteps s q n w' := by
  constructor
  · intro k hk
    obtain ⟨step, tmpl, hstep, htmpl⟩ := h.step k hk
    exact ⟨step, tmpl, (hb.steps _).trans hstep, htmpl⟩
  · exact (hb.steps _).trans h.last

/-- Statements that neither take the enrollment nor say anything about it. -/
def Elsewhere (id : Int) : Stmt → Prop
  | .closeEnrollment i _ => i ≠ id
  | .finishEnrollment i _ => i ≠ id
  | .advanceEnrollment i _ _ => i ≠ id
  | .failEnrollment i _ _ => i ≠ id
  | .retryEnrollment i _ _ => i ≠ id
  | .sendEmail m => ∀ k, m.purpose ≠ .step id k
  | .dueEnrollments _ => False
  | _ => True

theorem enroll_keeps {id : Int} {e : Enrollment} (q nextSendAt now : Int) (emails : List String)
    {t : Table Int Enrollment Enrollment.id} (h : t.get id = some e) :
    (emails.foldl (enroll q nextSendAt now) t).get id = some e := by
  induction emails generalizing t with
  | nil => exact h
  | cons email rest ih =>
    rw [List.foldl_cons]
    apply ih
    rw [enroll]
    split
    · exact h
    · by_cases hid : id = (newEnrollment (nextEnrollmentID t.rows) q email nextSendAt now).id
      · rw [hid] at h ⊢
        rw [Table.insert_of_taken t h]
        exact h
      · rw [Table.get_insert_of_ne t hid]
        exact h

theorem beside_of_enrollments {id q : Int} {w w' : World}
    (hrow : w'.enrollments.get id = w.enrollments.get id) (hsteps : w'.steps = w.steps)
    (hlog : sentSteps id w'.log = sentSteps id w.log) : Beside id q w w' :=
  ⟨fun _ he => hrow.trans he, fun _ => by rw [hsteps], hlog⟩

theorem beside_of_modify {id q i : Int} (hi : i ≠ id) (f : Enrollment → Enrollment)
    (hf : ∀ e, (f e).id = e.id) (w : World) :
    Beside id q w { w with enrollments := w.enrollments.modify i f hf } :=
  beside_of_enrollments (Table.get_modify_of_ne _ f hf (Ne.symm hi)) rfl rfl

theorem beside_of_elsewhere {id q : Int} {st : Stmt} (h : Elsewhere id st) (env : Env) (w : World) :
    Beside id q w (World.effect st env w) := by
  cases st with
  | closeEnrollment i status => exact beside_of_modify h _ _ w
  | finishEnrollment i step => exact beside_of_modify h _ _ w
  | advanceEnrollment i step next => exact beside_of_modify h _ _ w
  | failEnrollment i attempts message => exact beside_of_modify h _ _ w
  | retryEnrollment i attempts message => exact beside_of_modify h _ _ w
  | sendEmail m =>
    simp only [World.effect]
    split
    · refine beside_of_enrollments rfl rfl ?_
      rw [sentSteps_append]
      have hnone : sentSteps id [.sent m] = [] := by
        rw [sentSteps]
        cases hm : m.purpose with
        | campaign r => rfl
        | step i k =>
          have hi : i ≠ id := by
            rintro rfl
            exact h k hm
          simp only [if_neg hi, sentSteps]
      rw [hnone, List.append_nil]
    · exact .refl id q w
  | launch q' emails next =>
    exact ⟨fun e he => enroll_keeps q' next w.clock emails he, fun _ => rfl, rfl⟩
  | countQuota qd limit =>
    refine beside_of_enrollments rfl rfl ?_
    simp only [World.effect, sentSteps_append, sentSteps, List.append_nil]
  | issueToken email token =>
    simp only [World.effect]
    split
    · exact beside_of_enrollments rfl rfl rfl
    · exact .refl id q w
  | insertRecipient campaignID email =>
    simp only [World.effect]
    split
    · exact .refl id q w
    · exact beside_of_enrollments rfl rfl rfl
  | upsertContact p =>
    simp only [World.effect]
    split
    · exact beside_of_enrollments rfl rfl rfl
    · exact .refl id q w
  | dueEnrollments limit => exact False.elim h
  | _ => exact beside_of_enrollments rfl rfl rfl

variable {id q : Int} {a : String} {n : ℕ} {clean : World → Prop}

theorem observe_stmt {env : Env} (hdone : env.fate = .done) (st : Stmt) (x : Watch) :
    observe id env (.stmt .pool st) x = (World.answer env x.world st,
      ⟨World.effect st env x.world,
        x.failures + if isFailure id (.stmt .pool st) (World.answer env x.world st) then 1 else 0,
        x.taken + if isTaken id (.stmt .pool st) (World.answer env x.world st) then 1 else 0⟩) := by
  have heffect : engine.autocommit st env x.world = World.effect st env x.world := by
    rw [autocommit_eq, hdone]
    rfl
  rw [← heffect]
  rfl

theorem isFailure_elsewhere {st : Stmt} (h : Elsewhere id st) (r : Reply st) :
    isFailure id (.stmt .pool st) r = false := by
  cases st with
  | sendEmail m =>
    cases r with
    | ok _ => rfl
    | error e =>
      simp only [isFailure]
      cases hm : m.purpose with
      | campaign _ => rfl
      | step i k =>
        apply decide_eq_false
        rintro rfl
        exact h k hm
  | _ => rfl

theorem isTaken_elsewhere {st : Stmt} (h : Elsewhere id st) (r : Reply st) :
    isTaken id (.stmt .pool st) r = false := by
  cases st with
  | dueEnrollments limit => exact False.elim h
  | _ => rfl

/-- What others and statements about something else leave true, and what is in order. -/
structure Stable (id q : Int) (n : ℕ) (P : Watch → Prop) : Prop where
  beside : ∀ x x', Beside id q x.world x'.world → x'.failures = x.failures →
    x'.taken = x.taken → P x → P x'
  inOrder : ∀ x, P x → InOrder id n x.world

section Rules

variable {P : Watch → Prop} {α : Type} {R : Except Err α → Watch → Prop}

theorem meets_observed {st : Stmt} {f : Reply st → MarketingCall α} {x : Watch}
    (hP : Stable id q n P) (hx : P x)
    (hnext : ∀ (env : Env) u v, env.fate = .done → P u →
      observe id env (.stmt .pool st) u = (World.answer env u.world st, v) →
      Spared id a clean (.stmt .pool st) u v → InOrder id n v.world ∧
        Meets (serving id q a n clean) R (f (World.answer env u.world st)) v) :
    Meets (serving id q a n clean) R ((query st).bind f) x := by
  refine Meets.ask_kept (fun u v hrely => hP.beside u v hrely.1 hrely.2.1 hrely.2.2) hx ?_
  rintro u r v hu ⟨env, hdone, hobserve, hspared⟩
  have hr : World.answer env u.world st = r := by
    rw [observe_stmt hdone] at hobserve
    exact congrArg Prod.fst hobserve
  subst hr
  exact hnext env u v hdone hu hobserve hspared

theorem stable_elsewhere {st : Stmt} {env : Env} {u v : Watch} {r : Reply st}
    (hst : Elsewhere id st) (hP : Stable id q n P) (hdone : env.fate = .done) (hu : P u)
    (hobserve : observe id env (.stmt .pool st) u = (r, v)) : P v := by
  rw [observe_stmt hdone, isFailure_elsewhere hst, isTaken_elsewhere hst] at hobserve
  obtain ⟨-, hv⟩ := Prod.mk.inj hobserve
  subst hv
  exact hP.beside u _ (beside_of_elsewhere hst env u.world) rfl rfl hu

/-- The answer is from `u`, and the worker goes on in `v`. -/
theorem meets_elsewhere {st : Stmt} {f : Reply st → MarketingCall α} {x : Watch}
    (hst : Elsewhere id st) (hP : Stable id q n P) (hx : P x)
    (hnext : ∀ (env : Env) u v, env.fate = .done → P u → P v →
      Spared id a clean (.stmt .pool st) u v →
      Meets (serving id q a n clean) R (f (World.answer env u.world st)) v) :
    Meets (serving id q a n clean) R ((query st).bind f) x := by
  apply meets_observed hP hx
  intro env u v hdone hu hobserve hspared
  have hv := stable_elsewhere hst hP hdone hu hobserve
  exact ⟨hP.inOrder v hv, hnext env u v hdone hu hv hspared⟩

theorem meets_of_elsewhere {p : MarketingCall α} {x : Watch} (hp : Issues (Among (Elsewhere id)) p)
    (hP : Stable id q n P) (hx : P x) :
    Meets (serving id q a n clean) (fun _ => P) p x := by
  refine Meets.of_issues (fun u v hrely hu => hP.beside u v hrely.1 hrely.2.1 hrely.2.2 hu) ?_ hp hx
  rintro _ u r v ⟨st, rfl, hst⟩ hu ⟨env, hdone, hobserve, -⟩
  have hv := stable_elsewhere hst hP hdone hu hobserve
  exact ⟨hP.inOrder v hv, hv⟩

end Rules

/-- What the worker does for another enrollment, or for a campaign. -/
theorem elsewhere_of_serves {i : Option Int} {b : String} {st : Stmt} (hi : i ≠ some id)
    (h : Worker.Serves i b st) : Elsewhere id st := by
  cases st with
  | closeEnrollment j status => exact fun hj => hi (hj ▸ h)
  | finishEnrollment j step => exact fun hj => hi (hj ▸ h)
  | advanceEnrollment j step next => exact fun hj => hi (hj ▸ h)
  | failEnrollment j attempts message => exact fun hj => hi (hj ▸ h)
  | retryEnrollment j attempts message => exact fun hj => hi (hj ▸ h)
  | sendEmail m => exact fun k hk => hi (h.2 id k hk)
  | dueEnrollments limit => exact False.elim h
  | _ => exact trivial

theorem elsewhere_of_general (st : Stmt) (h : Worker.General st) : Elsewhere id st :=
  elsewhere_of_serves (by simp) (h none "")

theorem issues_others (s : Mailer) {e : Enrollment} (he : e.id ≠ id) (skip : Bool) :
    Issues (Among (Elsewhere id)) (s.processOneEnrollment e skip) := by
  refine (Worker.issues_processOneEnrollment s skip).mono ?_
  rintro _ ⟨st, rfl, h⟩
  exact ⟨st, rfl, elsewhere_of_serves (fun hi => he (Option.some.inj hi)) h⟩

variable (s : Mailer)

/-- After `k` steps and `f` failures. -/
structure Open (id q : Int) (a : String) (k f : ℕ) (e : Enrollment) : Prop where
  id_eq : e.id = id
  sequence : e.sequenceID = q
  email : e.email = a
  active : e.status = .active
  step : e.currentStep = k
  attempts : e.attemptCount = f

/-- The row is `e`, and `j` steps were sent. -/
structure Holds (s : Mailer) (id q : Int) (n : ℕ) (e : Enrollment) (j f t : ℕ) (x : Watch) :
    Prop where
  row : x.world.enrollments.get id = some e
  sent : sentSteps id x.world.log = firstSteps j
  steps : HasSteps s q n x.world
  failures : x.failures = f
  taken : x.taken = t

variable {s} {e : Enrollment} {j k f t : ℕ} {x : Watch}

theorem stable_holds (hj : j ≤ n) (hstatus : e.status = .active ∨ e.status = .completed ∧ j = n) :
    Stable id q n (Holds s id q n e j f t) := by
  constructor
  · intro x x' hbeside hfailures htaken hx
    exact ⟨hbeside.row e hx.row, hbeside.sent.trans hx.sent, hx.steps.beside hbeside,
      hfailures.trans hx.failures, htaken.trans hx.taken⟩
  · intro x hx
    exact ⟨e, j, hx.row, hx.sent, hj, hstatus⟩

theorem Open.stable {f' : ℕ} (h : Open id q a k f e) (hj : j ≤ n) :
    Stable id q n (Holds s id q n e j f' t) :=
  stable_holds hj (.inl h.active)

/-- Between two of its turns: every turn so far sent a step or failed, or all are done. -/
def Ready (s : Mailer) (id q : Int) (a : String) (n : ℕ) (x : Watch) : Prop :=
  (∃ e k f, Open id q a k f e ∧ k < n ∧ Holds s id q n e k f (k + f) x) ∨
    ∃ e f t, e.status = .completed ∧ Holds s id q n e n f t x

theorem stable_ready : Stable id q n (Ready s id q a n) := by
  constructor
  · rintro x x' hbeside hfailures htaken (⟨e, k, f, he, hk, hx⟩ | ⟨e, f, t, he, hx⟩)
    · exact .inl ⟨e, k, f, he, hk, (he.stable hk.le).beside x x' hbeside hfailures htaken hx⟩
    · exact .inr ⟨e, f, t, he,
        (stable_holds le_rfl (.inr ⟨he, rfl⟩)).beside x x' hbeside hfailures htaken hx⟩
  · rintro x (⟨e, k, f, he, hk, hx⟩ | ⟨e, f, t, he, hx⟩)
    · exact (he.stable hk.le).inOrder x hx
    · exact (stable_holds le_rfl (.inr ⟨he, rfl⟩)).inOrder x hx

/-- An update of the row. -/
def Watch.modify (id : Int) (g : Enrollment → Enrollment) (hg : ∀ e, (g e).id = e.id) (x : Watch) :
    Watch :=
  { x with world := { x.world with enrollments := x.world.enrollments.modify id g hg } }

theorem Holds.modify {g : Enrollment → Enrollment} (h : Holds s id q n e j f t x)
    (hg : ∀ e, (g e).id = e.id) : Holds s id q n (g e) j f t (x.modify id g hg) := by
  refine ⟨?_, h.sent, ⟨h.steps.step, h.steps.last⟩, h.failures, h.taken⟩
  show (x.world.enrollments.modify id g hg).get id = some (g e)
  rw [Table.get_modify_self, h.row]
  rfl

section Turn

variable {α : Type} {R : Except Err α → Watch → Prop}

/-- A turn ends with an update of the row. -/
theorem meets_update {st : Stmt} {g : World → Enrollment → Enrollment} {P : Watch → Prop}
    {next : Reply st → MarketingCall α} (hP : Stable id q n P) (hx : P x)
    (hg : ∀ w e, (g w e).id = e.id)
    (heffect : ∀ env w, World.effect st env w =
      { w with enrollments := w.enrollments.modify id (g w) (hg w) })
    (hcount : ∀ r, isFailure id (.stmt .pool st) r = false ∧ isTaken id (.stmt .pool st) r = false)
    (hready : ∀ u, P u → Ready s id q a n (u.modify id (g u.world) (hg u.world)))
    (hnext : ∀ r v, Ready s id q a n v → Meets (serving id q a n clean) R (next r) v) :
    Meets (serving id q a n clean) R ((query st).bind next) x := by
  apply meets_observed hP hx
  intro env u v hdone hu hobserve _
  obtain ⟨hfailure, htaken⟩ := hcount (World.answer env u.world st)
  rw [observe_stmt hdone, hfailure, htaken, heffect] at hobserve
  obtain ⟨-, hv⟩ := Prod.mk.inj hobserve
  subst hv
  exact ⟨stable_ready.inOrder _ (hready u hu), hnext _ _ (hready u hu)⟩

/-- A failure that is not the third one leaves the enrollment active. -/
theorem meets_markEnrollmentFailed {e : Enrollment} (err : Err) (he : Open id q a k f e)
    (hk : k < n) (hf : f + 1 < 3) (hx : Holds s id q n e k (f + 1) (k + f + 1) x) :
    Meets (serving id q a n clean) (fun _ => Ready s id q a n)
      (markEnrollmentFailed e.id e.attemptCount err) x := by
  have hretry : ¬e.attemptCount + 1 ≥ maxAttempts := by
    rw [he.attempts, maxAttempts]
    omega
  rw [markEnrollmentFailed, he.id_eq, if_neg hretry]
  refine meets_update (s := s) (he.stable hk.le) hx
    (fun w => retriedEnrollment_id (e.attemptCount + 1) err w.clock) (fun _ _ => rfl)
    (fun _ => ⟨rfl, rfl⟩) ?_ ?_
  · intro u hu
    refine .inl ⟨_, k, f + 1, ?_, hk, hu.modify _⟩
    refine ⟨he.id_eq, he.sequence, he.email, he.active, he.step, ?_⟩
    show e.attemptCount + 1 = ((f + 1 : ℕ) : Int)
    rw [he.attempts]
    rfl
  · intro _ v hv v' hrely
    exact stable_ready.beside v v' hrely.1 hrely.2.1 hrely.2.2 hv

/-- After the email of step `k + 1`. -/
theorem meets_advance {e : Enrollment} (he : Open id q a k f e) (hk : k < n)
    (hx : Holds s id q n e (k + 1) f (k + f + 1) x) :
    Meets (serving id q a n clean) (fun _ => Ready s id q a n)
      (s.advance e (e.currentStep + 1)) x := by
  have hstable : Stable id q n (Holds s id q n e (k + 1) f (k + f + 1)) := he.stable hk
  rw [he.step, Mailer.advance]
  refine meets_elsewhere trivial hstable hx ?_
  intro env u v hdone hu hv _
  have hanswer : World.answer env u.world (.getStep ⟨e.sequenceID, (k : Int) + 1 + 1⟩) =
      noRows (u.world.steps.get ⟨q, ((k + 1 : ℕ) : Int) + 1⟩) := by
    rw [← he.sequence]
    exact answered_done hdone _ _
  rw [hanswer, he.id_eq]
  by_cases hlast : k + 1 < n
  · obtain ⟨step, tmpl, hstep, -⟩ := hu.steps.step (k + 1) hlast
    rw [hstep]
    refine meets_elsewhere trivial hstable hv ?_
    intro _ _ v _ _ hv _
    refine meets_elsewhere trivial hstable hv ?_
    intro _ _ v _ _ hv _
    refine meets_update (s := s) hstable hv
      (fun w => advancedEnrollment_id ((k : Int) + 1) _ w.clock) (fun _ _ => rfl)
      (fun _ => ⟨rfl, rfl⟩) ?_ ?_
    · intro u hu
      have hturns : k + f + 1 = k + 1 + f := by omega
      rw [hturns] at hu
      refine .inl ⟨_, k + 1, f, ?_, hlast, hu.modify _⟩
      exact ⟨he.id_eq, he.sequence, he.email, he.active, rfl, he.attempts⟩
    · intro _ v hv
      exact meets_of_elsewhere (Worker.issues_incrementQuota elsewhere_of_general s)
        stable_ready hv
  · have hall : k + 1 = n := by omega
    rw [hall, hu.steps.last]
    refine meets_update (s := s) hstable hv
      (fun w => finishedEnrollment_id ((k : Int) + 1) w.clock) (fun _ _ => rfl)
      (fun _ => ⟨rfl, rfl⟩) ?_ ?_
    · intro u hu
      rw [hall] at hu
      exact .inr ⟨_, f, k + f + 1, rfl, hu.modify _⟩
    · intro _ v hv
      refine meets_of_elsewhere ?_ stable_ready hv
      refine (Worker.issues_maybeCompleteSequence elsewhere_of_general e.sequenceID).bind fun _ =>
        ?_
      exact Worker.issues_incrementQuota elsewhere_of_general s

/-- An email that goes out is one more step, one that does not is one more failure. -/
theorem meets_sendEmail {e : Enrollment} {m : Email} {next : Except Err Unit → MarketingCall α}
    (he : Open id q a k f e) (hk : k < n) (hm : m.purpose = .step id (k + 1))
    (hx : Holds s id q n e k f t x)
    (hsent : ∀ v, Holds s id q n e (k + 1) f t v →
      Meets (serving id q a n clean) R (next (.ok ())) v)
    (hfailed : ∀ err v, f + 1 < 3 → Holds s id q n e k (f + 1) t v →
      Meets (serving id q a n clean) R (next (.error err)) v) :
    Meets (serving id q a n clean) R ((query (.sendEmail m)).bind next) x := by
  apply meets_observed (he.stable hk.le) hx
  intro env u v hdone hu hobserve hspared
  have hanswer : World.answer env u.world (.sendEmail m) = env.delivery :=
    answered_done hdone _ _
  rw [observe_stmt hdone, hanswer] at hobserve
  obtain ⟨-, hv⟩ := Prod.mk.inj hobserve
  rw [hanswer]
  cases hdelivery : env.delivery with
  | ok _ =>
    have heffect : World.effect (.sendEmail m) env u.world =
        { u.world with log := u.world.log ++ [.sent m] } := by
      simp only [World.effect, hdelivery, Except.isOk, Except.toBool, if_true]
    rw [hdelivery, heffect] at hv
    have hrow : Holds s id q n e (k + 1) f t v := by
      subst hv
      refine ⟨hu.row, ?_, ⟨hu.steps.step, hu.steps.last⟩, hu.failures, hu.taken⟩
      show sentSteps id (u.world.log ++ [.sent m]) = firstSteps (k + 1)
      rw [sentSteps_append, hu.sent, firstSteps_succ, sentSteps, hm]
      simp only [if_true, sentSteps]
    exact ⟨(he.stable hk).inOrder v hrow, hsent v hrow⟩
  | error err =>
    have heffect : World.effect (.sendEmail m) env u.world = u.world := by
      simp [World.effect, hdelivery, Except.isOk, Except.toBool]
    have hfailure : isFailure id (.stmt .pool (.sendEmail m)) (.error err) = true := by
      simp [isFailure, hm]
    rw [hdelivery, heffect, hfailure] at hv
    have hrow : Holds s id q n e k (f + 1) t v := by
      subst hv
      refine ⟨hu.row, hu.sent, hu.steps, ?_, hu.taken⟩
      show u.failures + 1 = f + 1
      rw [hu.failures]
    have hfew : f + 1 < 3 := hrow.failures ▸ hspared.1
    exact ⟨(he.stable hk.le).inOrder v hrow, hfailed err v hfew hrow⟩

theorem meets_sendStep {e : Enrollment} {tmpl : EmailTemplate} (step : SequenceStep)
    (he : Open id q a k f e) (hk : k < n)
    (hfooter : ∀ token, (injectUnsubscribeFooter tmpl.bodyHTML (unsubLink token)).isOk = true)
    (hx : Holds s id q n e k f (k + f + 1) x) :
    Meets (serving id q a n clean) (fun _ => Ready s id q a n) (s.sendStep e tmpl step) x := by
  have hstable : Stable id q n (Holds s id q n e k f (k + f + 1)) := he.stable hk.le
  refine meets_elsewhere trivial hstable hx ?_
  intro env u v _ _ hv _
  generalize World.answer env u.world .random = token
  refine meets_elsewhere trivial hstable hv ?_
  intro _ _ v _ _ hv _
  apply Meets.ofExcept_bind
  · intro body _
    refine meets_sendEmail he hk ?_ hv ?_ ?_
    · rw [he.id_eq, he.step]
    · intro v hv
      exact meets_advance he hk hv
    · intro err v hfew hv
      exact meets_markEnrollmentFailed err he hk hfew hv
  · intro err herr
    have hok := hfooter token
    rw [herr] at hok
    cases hok

theorem meets_nextStep {e : Enrollment} (he : Open id q a k f e) (hk : k < n)
    (hx : Holds s id q n e k f (k + f + 1) x) :
    Meets (serving id q a n clean) (fun _ => Ready s id q a n) (s.nextStep e) x := by
  refine meets_elsewhere trivial (he.stable hk.le) hx ?_
  intro env u v hdone hu hv _
  obtain ⟨step, tmpl, hstep, htmpl, hfooter⟩ := hu.steps.step k hk
  have hanswer : World.answer env u.world (.getStep ⟨e.sequenceID, e.currentStep + 1⟩) =
      .ok step := by
    rw [he.sequence, he.step]
    exact (answered_done hdone _ _).trans (by rw [hstep]; rfl)
  rw [hanswer]
  dsimp only
  rw [htmpl]
  exact meets_sendStep step he hk hfooter hv

/-- The address has no row, so the turn is taken. -/
theorem meets_processOneEnrollment {e : Enrollment} (skip : Bool) (he : Open id q a k f e)
    (hk : k < n) (hx : Holds s id q n e k f (k + f + 1) x) :
    Meets (serving id q a n fun w => w.countUnsubscribed a = 0) (fun _ => Ready s id q a n)
      (s.processOneEnrollment e skip) x := by
  have hstable : Stable id q n (Holds s id q n e k f (k + f + 1)) := he.stable hk.le
  refine meets_elsewhere trivial hstable hx ?_
  intro env u v hdone hu hv hspared
  have hactive : isActive id u.world = true := by
    rw [isActive, hu.row]
    exact decide_eq_true he.active
  have hclean : World.answer env u.world (.countUnsubscribed e.email) = .ok 0 := by
    rw [he.email] at hspared ⊢
    exact (answered_done hdone _ _).trans (congrArg _ (hspared.2.2 rfl hactive))
  rw [hclean]
  cases skip with
  | false => exact meets_nextStep he hk hv
  | true =>
    refine meets_elsewhere trivial hstable hv ?_
    intro env u v hdone _ hv hspared
    have hnone : World.answer env u.world (.countConverted e.email) = .ok 0 := by
      rw [he.email] at hspared ⊢
      exact (answered_done hdone _ _).trans (congrArg _ (hspared.2.1 rfl))
    rw [hnone]
    exact meets_nextStep he hk hv

end Turn

theorem mem_dueEnrollments {w : World} {limit : Int} {d : Enrollment × Bool}
    (h : d ∈ w.dueEnrollments limit) : d.1 ∈ w.enrollments.rows ∧ w.isDue d.1 = true := by
  rw [World.dueEnrollments] at h
  obtain ⟨e, he, rfl⟩ := List.mem_map.mp h
  have hranked := List.mem_reverse.mp (List.mem_of_mem_take he)
  exact List.mem_filter.mp (RankedListings.mem_ranked.mp hranked)

theorem nodup_dueEnrollments (w : World) (limit : Int) :
    ((w.dueEnrollments limit).map fun d => d.1.id).Nodup := by
  have hrows : ((w.enrollments.rows.filter w.isDue).map Enrollment.id).Nodup :=
    w.enrollments.nodup.sublist (List.filter_sublist.map Enrollment.id)
  have hranked := (RankedListings.ranked_perm Enrollment.nextSendAt
    (w.enrollments.rows.filter w.isDue)).map Enrollment.id
  have hlisted := List.nodup_reverse.mpr (hranked.nodup_iff.mpr hrows)
  rw [← List.map_reverse] at hlisted
  rw [World.dueEnrollments, List.map_map]
  exact hlisted.sublist ((List.take_sublist _ _).map Enrollment.id)

/-- What is left of an outcome of the worker, which stops at a failure. -/
def Outcome (s : Mailer) (id q : Int) (a : String) (n : ℕ) : Except Err Unit → Watch → Prop
  | .ok _, x => Ready s id q a n x
  | .error _, x => InOrder id n x.world

theorem outcome_of_ready (y : Except Err Unit) (h : Ready s id q a n x) :
    Outcome s id q a n y x := by
  cases y with
  | ok _ => exact h
  | error e => exact stable_ready.inOrder x h

/-- Others are served. -/
theorem meets_others {due : List (Enrollment × Bool)} (h : ∀ d ∈ due, d.1.id ≠ id)
    (hx : Ready s id q a n x) :
    Meets (serving id q a n clean) (Outcome s id q a n)
      (Prog.each (fun d => s.processOneEnrollment d.1 d.2) due) x := by
  induction due generalizing x with
  | nil => exact fun v hrely => stable_ready.beside x v hrely.1 hrely.2.1 hrely.2.2 hx
  | cons d due ih =>
    have hd := issues_others s (h d List.mem_cons_self) d.2
    refine Meets.seq (meets_of_elsewhere hd stable_ready hx) ?_ ?_
    · intro _ v hv
      exact ih (fun d' hd' => h d' (List.mem_cons_of_mem d hd')) hv
    · exact fun e v hv => outcome_of_ready (.error e) hv

/-- The enrollment has its turn among the others. -/
theorem meets_each {due : List (Enrollment × Bool)} (he : Open id q a k f e) (hk : k < n)
    (hnodup : (due.map fun d => d.1.id).Nodup) (hrow : ∀ d ∈ due, d.1.id = id → d.1 = e)
    (htaken : ∃ d ∈ due, d.1.id = id) (hx : Holds s id q n e k f (k + f + 1) x) :
    Meets (serving id q a n fun w => w.countUnsubscribed a = 0) (Outcome s id q a n)
      (Prog.each (fun d => s.processOneEnrollment d.1 d.2) due) x := by
  induction due generalizing x with
  | nil =>
    obtain ⟨d, hd, -⟩ := htaken
    cases hd
  | cons d due ih =>
    rw [List.map_cons, List.nodup_cons] at hnodup
    have hrest : ∀ d' ∈ due, d'.1.id = id → d'.1 = e := fun d' hd' =>
      hrow d' (List.mem_cons_of_mem d hd')
    by_cases hd : d.1.id = id
    · have hothers : ∀ d' ∈ due, d'.1.id ≠ id := by
        intro d' hd' hid
        apply hnodup.1
        rw [hd, ← hid]
        exact List.mem_map_of_mem hd'
      have hown := hrow d List.mem_cons_self hd
      refine Meets.seq (J := Ready s id q a n) ?_ (fun _ v hv => meets_others hothers hv) ?_
      · show Meets _ _ (s.processOneEnrollment d.1 d.2) x
        rw [hown]
        exact meets_processOneEnrollment d.2 he hk hx
      · exact fun err v hv => outcome_of_ready (.error err) hv
    · have hother := issues_others s hd d.2
      have hlater : ∃ d' ∈ due, d'.1.id = id := by
        obtain ⟨d', hd', hid⟩ := htaken
        rcases List.mem_cons.mp hd' with rfl | hd'
        · exact absurd hid hd
        · exact ⟨d', hd', hid⟩
      refine Meets.seq (meets_of_elsewhere hother (he.stable hk.le) hx) ?_ ?_
      · exact fun _ v hv => ih hnodup.2 hrest hlater hv
      · exact fun err v hv => (he.stable hk.le).inOrder v hv

/-- A completed enrollment is not due, an active one may be. -/
theorem meets_due {limit : Int}
    {next : Except Err (List (Enrollment × Bool)) → MarketingCall Unit}
    (hnext : ∀ due, next (.ok due) = Prog.each (fun d => s.processOneEnrollment d.1 d.2) due)
    (hx : Ready s id q a n x) :
    Meets (serving id q a n fun w => w.countUnsubscribed a = 0) (Outcome s id q a n)
      ((query (.dueEnrollments limit)).bind next) x := by
  apply meets_observed stable_ready hx
  intro env u v hdone hu hobserve _
  have hanswer : World.answer env u.world (.dueEnrollments limit) =
      .ok (u.world.dueEnrollments limit) := answered_done hdone _ _
  rw [observe_stmt hdone, hanswer] at hobserve
  obtain ⟨-, hv⟩ := Prod.mk.inj hobserve
  rw [hanswer, hnext]
  by_cases hnone : ∀ d ∈ u.world.dueEnrollments limit, d.1.id ≠ id
  · have hcount : isTaken id (.stmt .pool (.dueEnrollments limit))
        (.ok (u.world.dueEnrollments limit)) = false := by
      simpa [isTaken] using hnone
    rw [hcount] at hv
    have hready : Ready s id q a n v := by
      subst hv
      exact hu
    exact ⟨stable_ready.inOrder v hready, meets_others hnone hready⟩
  · push Not at hnone
    obtain ⟨d, hd, hid⟩ := hnone
    obtain ⟨hmem, hdue⟩ := mem_dueEnrollments hd
    have hget : u.world.enrollments.get id = some d.1 := by
      rw [← hid]
      exact Table.get_of_mem hmem
    have hactive : d.1.status = .active := by
      simp only [World.isDue, Bool.and_eq_true, decide_eq_true_eq] at hdue
      exact hdue.1.1
    rcases hu with ⟨e, k, f, he, hk, hrow⟩ | ⟨e, f, t, he, hrow⟩
    · have hcount : isTaken id (.stmt .pool (.dueEnrollments limit))
          (.ok (u.world.dueEnrollments limit)) = true := by
        simp only [isTaken, List.any_eq_true]
        exact ⟨d, hd, decide_eq_true hid⟩
      rw [hcount] at hv
      have hturn : Holds s id q n e k f (k + f + 1) v := by
        subst hv
        refine ⟨hrow.row, hrow.sent, hrow.steps, hrow.failures, ?_⟩
        show u.taken + 1 = k + f + 1
        rw [hrow.taken]
      refine ⟨(he.stable hk.le).inOrder v hturn, ?_⟩
      refine meets_each he hk (nodup_dueEnrollments u.world limit) ?_ ⟨d, hd, hid⟩ hturn
      intro d' hd' hid'
      have hget' := Table.get_of_mem (mem_dueEnrollments hd').1
      rw [hid', hrow.row] at hget'
      exact (Option.some.inj hget').symm
    · -- what is completed is not active
      have hsame : e = d.1 := Option.some.inj (hrow.row.symm.trans hget)
      rw [hsame, hactive] at he
      cases he

theorem meets_processSequenceTick (hx : Ready s id q a n x) :
    Meets (serving id q a n fun w => w.countUnsubscribed a = 0) (Outcome s id q a n)
      s.processSequenceTick x := by
  have hquota : Issues (Among (Elsewhere id)) s.getRemainingQuota :=
    Worker.issues_getRemainingQuota elsewhere_of_general s
  refine Meets.seq (meets_of_elsewhere hquota.attempt stable_ready hx) ?_ ?_
  · intro quota v hv
    cases quota with
    | error e => exact fun v' hrely => stable_ready.beside v v' hrely.1 hrely.2.1 hrely.2.2 hv
    | ok remaining =>
      show Meets _ _ (if remaining ≤ 0 then _ else _) v
      split
      · exact fun v' hrely => stable_ready.beside v v' hrely.1 hrely.2.1 hrely.2.2 hv
      · exact meets_due (fun _ => rfl) hv
  · exact fun e v hv => outcome_of_ready (.error e) hv

theorem meets_worker (ticks : ℕ) (hx : Ready s id q a n x) :
    Meets (serving id q a n fun w => w.countUnsubscribed a = 0) (Outcome s id q a n)
      (s.worker ticks) x := by
  induction ticks generalizing x with
  | zero => exact fun v hrely => stable_ready.beside x v hrely.1 hrely.2.1 hrely.2.2 hx
  | succ ticks ih =>
    have htick : Meets (serving id q a n fun w => w.countUnsubscribed a = 0)
        (Outcome s id q a n) s.tick x := by
      have hqueue : Issues (Among (Elsewhere id)) s.processQueue :=
        Worker.issues_processQueue s fun _ _ h => elsewhere_of_serves (by simp) h
      refine Meets.seq (meets_of_elsewhere hqueue stable_ready hx) ?_ ?_
      · exact fun _ v hv => meets_processSequenceTick hv
      · exact fun e v hv => outcome_of_ready (.error e) hv
    refine Meets.bind (htick.mono ?_)
    intro outcome v hv
    cases outcome with
    | ok _ => exact ih hv
    | error e => exact hv

/-- An enrollment as a launch makes it: whichever emails fail, fewer than three times, and
whatever else the worker and others do, if no check of its address finds a row then the steps
sent are at any time the first ones in order; and once it has been taken `n` times, and once
more for each failure, all of them were sent and it is completed. -/
theorem every_step_delivered (s : Mailer) (w : World) (id q : Int) (a : String)
    (nextSendAt now : Int) (n : ℕ)
    (hrow : w.enrollments.get id = some (World.newEnrollment id q a nextSendAt now))
    (hn : 0 < n) (hsteps : HasSteps s q n w) (hlog : sentSteps id w.log = []) (ticks : ℕ) :
    Meets (serving id q a n fun w => w.countUnsubscribed a = 0)
      (fun outcome x => InOrder id n x.world ∧
        (outcome = .ok () → n + x.failures ≤ x.taken → Delivered id n x.world))
      (s.worker ticks) ⟨w, 0, 0⟩ := by
  have hready : Ready s id q a n ⟨w, 0, 0⟩ := by
    refine .inl ⟨_, 0, 0, ⟨rfl, rfl, rfl, rfl, rfl, rfl⟩, hn, hrow, ?_, hsteps, rfl, rfl⟩
    exact hlog
  refine (meets_worker ticks hready).mono ?_
  intro outcome x hx
  cases outcome with
  | error e => exact ⟨hx, fun h => by cases h⟩
  | ok _ =>
    refine ⟨stable_ready.inOrder x hx, fun _ htaken => ?_⟩
    rcases hx with ⟨e, k, f, he, hk, hrow⟩ | ⟨e, f, t, he, hrow⟩
    · rw [hrow.failures, hrow.taken] at htaken
      omega
    · exact ⟨e, hrow.row, he, hrow.sent⟩

/-- What the tables leave of the day. -/
def remainingQuota (z : Zone) (w : World) : Int :=
  match w.quotas.get (z.quotaDate w.clock) with
  | some quota =>
      (if limitOf w < quota.dailyLimit then limitOf w else quota.dailyLimit) - quota.sentCount
  | none => limitOf w

/-- Nobody else runs, and every statement succeeds. -/
def undisturbed (id : Int) : Setting (Cmd Stmt) (Answer Reply) Watch where
  rely x x' := x' = x
  does c x r x' := ∃ env : Env, env.fate = .done ∧ observe id env c x = (r, x')
  guar _ _ _ _ := True
  rely_refl _ := rfl
  rely_trans h h' := h'.trans h

section Progress

variable {α : Type} {R : Except Err α → Watch → Prop}

theorem meets_undisturbed {st : Stmt} {f : Reply st → MarketingCall α}
    (hnext : ∀ env : Env, env.fate = .done → Meets (undisturbed id) R
      (f (World.answer env x.world st)) (observe id env (.stmt .pool st) x).2) :
    Meets (undisturbed id) R ((query st).bind f) x := by
  refine Meets.ask_bind ?_
  rintro x' rfl r y ⟨env, hdone, hobserve⟩
  have hnext' := hnext env hdone
  rw [hobserve] at hnext'
  have hr : World.answer env x'.world st = r := by
    rw [observe_stmt hdone] at hobserve
    exact congrArg Prod.fst hobserve
  subst hr
  exact ⟨trivial, hnext'⟩

/-- What only reads leaves everything as it is. -/
theorem meets_read {st : Stmt} {f : Reply st → MarketingCall α} (hst : Elsewhere id st)
    (heffect : ∀ env w, World.effect st env w = w)
    (hnext : ∀ env : Env, env.fate = .done →
      Meets (undisturbed id) R (f (World.answer env x.world st)) x) :
    Meets (undisturbed id) R ((query st).bind f) x := by
  refine meets_undisturbed fun env hdone => ?_
  rw [observe_stmt hdone, isFailure_elsewhere hst, isTaken_elsewhere hst, heffect]
  exact hnext env hdone

theorem meets_limit {f : Int → MarketingCall α}
    (hnext : Meets (undisturbed id) R (f (limitOf x.world)) x) :
    Meets (undisturbed id) R (effectiveDailyLimit.bind f) x := by
  rw [effectiveDailyLimit, Prog.bind_eq, Prog.bind_assoc]
  refine meets_read trivial (fun _ _ => rfl) fun env hdone => ?_
  have hanswer : World.answer env x.world .getSettings =
      noRows (x.world.dailyLimit.map Subtype.val) := answered_done hdone _ _
  rw [hanswer]
  rw [limitOf] at hnext
  cases hsettings : x.world.dailyLimit with
  | none =>
    rw [hsettings] at hnext
    exact hnext
  | some limit =>
    rw [hsettings] at hnext
    exact hnext

/-- At most a row for the day is new. -/
def Counted (x y : Watch) : Prop :=
  y.taken = x.taken ∧ ∃ quotas, y.world = { x.world with quotas := quotas }

theorem meets_remaining (s : Mailer) (x : Watch) :
    Meets (undisturbed id) (fun out y => out = .ok (remainingQuota s.zone x.world) ∧ Counted x y)
      s.getRemainingQuota x := by
  refine meets_read trivial (fun _ _ => rfl) fun env _ => ?_
  have hclock : World.answer env x.world .timeNow = x.world.clock := rfl
  rw [hclock]
  refine meets_read trivial (fun _ _ => rfl) fun env hdone => ?_
  have hanswer : World.answer env x.world (.getQuota (s.zone.quotaDate x.world.clock)) =
      noRows (x.world.quotas.get (s.zone.quotaDate x.world.clock)) := answered_done hdone _ _
  rw [hanswer, remainingQuota]
  cases hquota : x.world.quotas.get (s.zone.quotaDate x.world.clock) with
  | some quota =>
    refine meets_limit ?_
    rintro y rfl
    exact ⟨rfl, rfl, y.world.quotas, rfl⟩
  | none =>
    refine meets_limit (meets_undisturbed fun env hdone => ?_)
    have hcreated : World.answer env x.world
        (.createQuota (s.zone.quotaDate x.world.clock) (limitOf x.world)) = .ok () :=
      answered_done hdone _ _
    rw [hcreated, observe_stmt hdone]
    rintro y rfl
    exact ⟨rfl, rfl, _, rfl⟩

/-- A tick that finds quota left takes an enrollment that is due and among the first of its
batch. -/
theorem due_is_taken (s : Mailer) {e : Enrollment} (hrow : x.world.enrollments.get id = some e)
    (hdue : x.world.isDue e = true)
    (hfirst : ((x.world.enrollments.rows.filter x.world.isDue).countP fun d =>
      d.nextSendAt ≤ e.nextSendAt) ≤
        (min Mailer.batchPerTick (remainingQuota s.zone x.world)).toNat) :
    Meets (undisturbed id) (fun _ y => x.taken < y.taken) s.processSequenceTick x := by
  have hmem : e ∈ x.world.enrollments.rows.filter x.world.isDue :=
    List.mem_filter.mpr ⟨(Table.get_eq_some hrow).1, hdue⟩
  have hsome : 0 < (x.world.enrollments.rows.filter x.world.isDue).countP fun d =>
      d.nextSendAt ≤ e.nextSendAt := List.countP_pos_iff.mpr ⟨e, hmem, decide_eq_true le_rfl⟩
  have hlater : ∀ {β : Type} (p : MarketingCall β) {y : Watch}, x.taken < y.taken →
      Meets (undisturbed id) (fun _ z => x.taken < z.taken) p y := by
    intro β p y hy
    refine Meets.of_issues (P := fun _ => True) (J := fun z : Watch => x.taken < z.taken)
      (fun u v huv h => huv ▸ h) ?_ (Issues.always fun _ => trivial) hy
    rintro c u r v - hu ⟨env, -, hobserve⟩
    obtain rfl : (observe id env c u).2 = v := congrArg Prod.snd hobserve
    exact ⟨trivial, Nat.lt_of_lt_of_le hu (Nat.le_add_right _ _)⟩
  refine Meets.bind (Meets.attempt ((meets_remaining s x).mono ?_))
  rintro _ y ⟨rfl, htaken, quotas, hworld⟩
  show Meets _ _ (if remainingQuota s.zone x.world ≤ 0 then _ else _) y
  rw [if_neg (by omega)]
  refine meets_undisturbed fun env hdone => ?_
  have hlimit : (if remainingQuota s.zone x.world > Mailer.batchPerTick then Mailer.batchPerTick
      else remainingQuota s.zone x.world) = min Mailer.batchPerTick
        (remainingQuota s.zone x.world) := by
    split <;> omega
  rw [hlimit]
  have hanswer : World.answer env y.world
      (.dueEnrollments (min Mailer.batchPerTick (remainingQuota s.zone x.world))) =
      .ok (x.world.dueEnrollments (min Mailer.batchPerTick (remainingQuota s.zone x.world))) := by
    rw [hworld]
    exact answered_done hdone _ _
  have hlisted : ∃ d ∈ x.world.dueEnrollments
      (min Mailer.batchPerTick (remainingQuota s.zone x.world)), d.1.id = id := by
    rw [World.dueEnrollments]
    refine ⟨_, List.mem_map_of_mem (RankedListings.mem_take_reverse_ranked hmem hfirst), ?_⟩
    exact (Table.get_eq_some hrow).2
  have hcount : isTaken id
      (.stmt .pool (.dueEnrollments (min Mailer.batchPerTick (remainingQuota s.zone x.world))))
      (.ok (x.world.dueEnrollments (min Mailer.batchPerTick (remainingQuota s.zone x.world)))) =
        true := by
    obtain ⟨d, hd, hid⟩ := hlisted
    simp only [isTaken, List.any_eq_true]
    exact ⟨d, hd, decide_eq_true hid⟩
  refine hlater _ ?_
  rw [observe_stmt hdone, hanswer, hcount]
  show x.taken < y.taken + 1
  omega

end Progress

namespace OneEnrollment

def mailer : Mailer := ⟨.cet, [⟨"welcome", "Welcome", "<p>Hello</p>"⟩]⟩

def sequence : Sequence := ⟨1, "s-1", .all, .running, false, none, 0, some 0, none⟩

/-- A running sequence with one enrollment. -/
def tables : World :=
  { World.empty with
    sequences := World.empty.sequences.insert sequence
    steps := World.empty.steps.insert ⟨⟨1, 1⟩, some "welcome", none, 0⟩
    enrollments := World.empty.enrollments.insert (World.newEnrollment 1 1 "a@x.example" 0 0)
    quotas := World.empty.quotas.insert ⟨-1, 0, 200⟩
    dailyLimit := some ⟨60, by omega⟩ }

/-- The same with a second step. -/
def twoSteps : World :=
  { tables with steps := tables.steps.insert ⟨⟨1, 2⟩, some "welcome", none, 0⟩ }

/-- The same for an address with blanks around it: its tokens are stored without them. -/
def padded : World :=
  { twoSteps with
    enrollments := World.empty.enrollments.insert (World.newEnrollment 1 1 " a@x.example " 0 0) }

theorem takes_footer (token : String) :
    (injectUnsubscribeFooter "<p>Hello</p>" (unsubLink token)).isOk = true := by
  have hnone : TextSearch.lastIndex (TextSearch.utf8 closingTag)
      (TextSearch.utf8 (lower "<p>Hello</p>").toList) = none := by decide +kernel
  rw [injectUnsubscribeFooter, hnone]
  rfl

theorem hasSteps : HasSteps mailer 1 2 padded := by
  have hwelcome : mailer.getTemplateByID "welcome" =
      some ⟨"welcome", "Welcome", "<p>Hello</p>"⟩ := by decide
  refine ⟨?_, rfl⟩
  intro k hk
  refine ⟨⟨⟨1, k + 1⟩, some "welcome", none, 0⟩, _, ?_, hwelcome, takes_footer⟩
  rcases Nat.lt_succ_iff_lt_or_eq.mp hk with hfirst | rfl
  · obtain rfl : k = 0 := by omega
    rfl
  · rfl

end OneEnrollment

open OneEnrollment in
/-- Two ticks of an undisturbed worker send both steps. -/
theorem every_step_delivered_padded :
    Meets (serving 1 1 " a@x.example " 2 fun w => w.countUnsubscribed " a@x.example " = 0)
        (fun outcome x => InOrder 1 2 x.world ∧
          (outcome = .ok () → 2 + x.failures ≤ x.taken → Delivered 1 2 x.world))
        (mailer.worker 2) ⟨padded, 0, 0⟩ ∧
      (Meets.walk (fun _ c x => observe 1 {} c x)
        (fun _ x x' => x'.failures < 3 && x.world.countConverted " a@x.example " = 0 &&
          x.world.countUnsubscribed " a@x.example " = 0)
        (mailer.worker 2) 0 ⟨padded, 0, 0⟩).map
          (fun r => (r.2.taken, sentSteps 1 r.2.world.log,
            (r.2.world.enrollments.get 1).map Enrollment.status)) =
        some (2, [1, 2], some .completed) :=
  ⟨every_step_delivered mailer padded 1 1 " a@x.example " 0 0 2 rfl (by omega) hasSteps rfl 2,
    by decide +kernel⟩

open OneEnrollment in
/-- The token of the first email is a row of the address for the second turn. -/
theorem token_ends_sequence :
    ¬Meets (serving 1 1 "a@x.example" 2 fun _ => True)
      (fun outcome x => InOrder 1 2 x.world ∧
        (outcome = .ok () → 2 + x.failures ≤ x.taken → Delivered 1 2 x.world))
      (mailer.worker 2) ⟨twoSteps, 0, 0⟩ := by
  intro h
  have hrun : (Meets.walk (fun _ c x => observe 1 {} c x)
      (fun _ x x' => x'.failures < 3 && x.world.countConverted "a@x.example" = 0)
      (mailer.worker 2) 0 ⟨twoSteps, 0, 0⟩).map
        (fun r => (r.2.world.enrollments.get 1).map Enrollment.status) =
      some (some .unsubscribed) := by
    decide +kernel
  obtain ⟨⟨outcome, x⟩, hwalk, hstatus⟩ := Option.map_eq_some_iff.mp hrun
  have hend := Meets.outcome_of_walk (S := serving 1 1 "a@x.example" 2 fun _ => True) ?_ h hwalk
  · obtain ⟨e, k, hrow, -, -, hopen⟩ := hend.1
    dsimp only at hstatus
    rw [hrow] at hstatus
    have hclosed : e.status = .unsubscribed := Option.some.inj hstatus
    rw [hclosed] at hopen
    rcases hopen with hopen | ⟨hopen, -⟩ <;> cases hopen
  · intro n c x hmay
    rw [Bool.and_eq_true, decide_eq_true_eq, decide_eq_true_eq] at hmay
    exact ⟨{}, rfl, rfl, hmay.1, fun _ => hmay.2, fun _ _ => trivial⟩

end Delivery

end Marketing

end CryptoLink
