import CryptoLink.Marketing.Calls

/-!
# Opting out

One table has the tokens of the links and stands for who has opted out. A link
works as long as no later email has replaced its token, and opting out lasts
where nothing was queued before and no check is skipped.
-/

namespace CryptoLink

namespace Marketing

namespace OptOut

open KeyedTables ReadCommitted StatementPrograms System Marketing.World

def sendsTo (a : String) : Cmd Stmt → Bool
  | .stmt _ (.sendEmail m) => lower m.recipient = lower a
  | _ => false

variable (s : Mailer)

def arrives (m : Email) : Cmd Stmt → Env → Bool
  | .stmt .pool (.sendEmail m'), env => m' = m && env.fate ≠ .refused && env.delivery.isOk
  | _, _ => false

/-- The step sends the email, and it arrives. -/
def GoesOut (m : Email) (cfg : MarketingConfig) (e : MarketingEvent) : Prop :=
  ∃ x ∈ s.system.executing cfg e, arrives m x.cmd x.env = true

instance (m : Email) (cfg : MarketingConfig) (e : MarketingEvent) :
    Decidable (GoesOut s m cfg e) :=
  inferInstanceAs (Decidable (∃ x ∈ s.system.executing cfg e, arrives m x.cmd x.env = true))

/-- An email goes out, and its link is followed some time later: it works, and no call that
starts afterwards sends the recipient another one. -/
def Honoured (w : World) (m : Email) (earlier : List MarketingEvent) (e : MarketingEvent)
    (between later : List MarketingEvent) : Prop :=
  GoesOut s m (s.system.run ⟨w, []⟩ earlier) e →
    (∀ envs : ℕ → Env, (envs 0).fate = .done →
      (engine.alone envs (unsubscribe m.token) 0
        ⟨(s.system.run ⟨w, []⟩ (earlier ++ e :: between)).world, .idle⟩).1.isOk = true) ∧
    s.system.Along
      (LaterIn s.system (s.system.run ⟨w, []⟩ (earlier ++ e :: between)).threads.length
        fun c => sendsTo m.recipient c = false)
      (s.system.run ⟨w, []⟩ (earlier ++ e :: between)) later

def issuesTo (address : String) : Cmd Stmt → Bool
  | .stmt _ (.issueToken email _) => email = address
  | _ => false

/-- The step issues no token for the address. -/
def KeepsToken (address : String) (cfg : MarketingConfig) (e : MarketingEvent) : Prop :=
  ∀ x ∈ s.system.executing cfg e, issuesTo address x.cmd = false

/-- A check of the address before a step of a sequence is answered. -/
def checked (a : String) : Cmd Stmt → Env → Bool
  | .stmt _ (.countUnsubscribed email), env => lower email ≠ lower a || env.fate = .done
  | _, _ => true

def running : MarketingCall Unit → Bool
  | .call .. => true
  | _ => false

def queueing : MarketingLabel → Bool
  | .sendCampaign _ => true
  | _ => false

/-- No campaign has the address among those it is still to send to. -/
def Unqueued (a : String) (w : World) : Prop :=
  ∀ r ∈ w.recipients.rows, r.status = .pending → lower r.email ≠ lower a

instance (address : String) (cfg : MarketingConfig) (e : MarketingEvent) :
    Decidable (KeepsToken s address cfg e) :=
  inferInstanceAs (Decidable (∀ x ∈ s.system.executing cfg e, issuesTo address x.cmd = false))

instance (a : String) (w : World) : Decidable (Unqueued a w) :=
  inferInstanceAs (Decidable (∀ r ∈ w.recipients.rows, r.status = .pending →
    lower r.email ≠ lower a))

/-- The token is stored under the address when the email goes out and is not replaced until the
link is followed; by then the address is not queued and nobody is queueing a campaign; later
the checks of the address are answered. -/
structure Clear (w : World) (m : Email) (earlier : List MarketingEvent) (e : MarketingEvent)
    (between later : List MarketingEvent) : Prop where
  stored : ∃ address, (s.system.run ⟨w, []⟩ earlier).world.emailOfToken m.token = some address ∧
    lower address = lower m.recipient ∧
    s.system.Along (KeepsToken s address) (s.system.run ⟨w, []⟩ earlier) (e :: between)
  unqueued : Unqueued m.recipient (s.system.run ⟨w, []⟩ (earlier ++ e :: between)).world
  settled : ∀ th ∈ (s.system.run ⟨w, []⟩ (earlier ++ e :: between)).threads,
    queueing th.label = true → running th.prog = false
  answered : s.system.Along (Admitted s.system fun c env => checked m.recipient c env = true)
    (s.system.run ⟨w, []⟩ (earlier ++ e :: between)) later

variable {a address token : String} {env : Env} {w : World} {st : Stmt}

theorem find_token_map (g : Unsubscribe → Unsubscribe) {rows : List Unsubscribe} {u : Unsubscribe}
    (hfound : rows.find? (fun u => u.token = token) = some u) (hu : g u = u)
    (hother : ∀ x, x.token ≠ token → (g x).token ≠ token) :
    ((rows.map g).find? fun u => u.token = token) = some u := by
  induction rows with
  | nil => cases hfound
  | cons x rows ih =>
    rw [List.map_cons, List.find?_cons]
    rw [List.find?_cons] at hfound
    by_cases hx : x.token = token
    · rw [decide_eq_true hx] at hfound
      obtain rfl := Option.some.inj hfound
      rw [hu, decide_eq_true hx]
    · rw [decide_eq_false hx] at hfound
      rw [decide_eq_false (hother x hx)]
      exact ih hfound

/-- A token for another address is another token. -/
theorem emailOfToken_issueToken {email token' : String} (hfits : w.tokenFits email token' = true)
    (hne : email ≠ address) (h : w.emailOfToken token = some address) :
    (World.effect (.issueToken email token') env w).emailOfToken token = some address := by
  obtain ⟨u, hfound, rfl⟩ := Option.map_eq_some_iff.mp h
  have htoken : u.token = token := by simpa using List.find?_some hfound
  have hother : token' ≠ token := by
    rintro rfl
    simp only [World.tokenFits, Bool.and_eq_true, List.all_eq_true, Bool.or_eq_true,
      decide_eq_true_eq, bne_iff_ne] at hfits
    rcases hfits.2 u (List.mem_of_find?_eq_some hfound) with hdiffers | hsame
    · exact hdiffers htoken
    · exact hne hsame.symm
  have hinserted : (w.unsubscribes.insert ⟨email, token'⟩).rows.find?
      (fun u => u.token = token) = some u := by
    rw [Table.rows_insert]
    split
    · exact hfound
    · rw [List.find?_append, hfound]
      rfl
  simp only [World.effect, hfits, if_true, World.emailOfToken, Table.rows_modify]
  rw [find_token_map _ hinserted]
  · rfl
  · exact if_neg hne.symm
  · intro x hx
    split
    · exact hother
    · exact hx

theorem emailOfToken_kept (hst : ∀ token', st ≠ .issueToken address token')
    (h : w.emailOfToken token = some address) :
    (engine.autocommit st env w).emailOfToken token = some address := by
  rw [autocommit_eq]
  split
  · exact h
  · cases st with
    | issueToken email token' =>
      have hne : email ≠ address := by
        rintro rfl
        exact hst token' rfl
      by_cases hfits : w.tokenFits email token' = true
      · exact emailOfToken_issueToken hfits hne h
      · simpa [World.effect, hfits] using h
    | insertRecipient campaignID email =>
      simp only [World.effect]
      split <;> exact h
    | sendEmail m =>
      simp only [World.effect]
      split <;> exact h
    | upsertContact p =>
      simp only [World.effect]
      split <;> exact h
    | _ => exact h

variable {s} {cfg : MarketingConfig}

/-- A link that works goes on to work. -/
theorem emailOfToken_along (hplain : Plain cfg) {es : List MarketingEvent}
    (hkept : s.system.Along (KeepsToken s address) cfg es)
    (h : cfg.world.emailOfToken token = some address) :
    (s.system.run cfg es).world.emailOfToken token = some address := by
  refine (Plain.invariant s.singles (I := fun cfg => cfg.world.emailOfToken token = some address)
    ?_ hplain hkept h).2
  intro cfg e cfg' hcfg hok hs
  cases hs with
  | nothing => exact hcfg
  | start l => exact hcfg
  | crash i th here => exact hcfg
  | move m => cases m <;> exact hcfg
  | stmt i env l st k here executing =>
    apply emailOfToken_kept ?_ hcfg
    rintro token' rfl
    have hother := hok _ executing
    simp [issuesTo] at hother

theorem unsubscribe_isOk (h : w.emailOfToken token = some address) (envs : ℕ → Env)
    (hdone : (envs 0).fate = .done) :
    (engine.alone envs (unsubscribe token) 0 ⟨w, .idle⟩).1.isOk = true := by
  have hanswer : engine.reply (.emailOfToken token) (envs 0) w = .ok address := by
    refine (answered_done hdone _ _).trans ?_
    rw [h]
    rfl
  rw [unsubscribe, Prog.bind_eq, Engine.alone_onPool_bind, hanswer]
  rfl

/-- The address has a row, and no campaign is still to send to it. -/
structure Out (a : String) (w : World) : Prop where
  row : ∃ u ∈ w.unsubscribes.rows, lower u.email = lower a
  unqueued : Unqueued a w

def QueuesFor (a : String) : Stmt → Prop
  | .insertRecipient _ email => lower email = lower a
  | _ => False

theorem Out.congr {w' : World} (h : Out a w) (hrows : w'.unsubscribes = w.unsubscribes)
    (hrecipients : w'.recipients = w.recipients) : Out a w' := by
  obtain ⟨u, hu, hsame⟩ := h.row
  refine ⟨⟨u, hrows ▸ hu, hsame⟩, ?_⟩
  intro r hr
  rw [hrecipients] at hr
  exact h.unqueued r hr

/-- A recipient that was sent to, or not, is no longer waiting. -/
theorem Out.modify (h : Out a w) (id : Int) {g : Recipient → Recipient}
    (hg : ∀ r, (g r).id = r.id) (hstatus : ∀ r, (g r).status ≠ .pending) :
    Out a { w with recipients := w.recipients.modify id g hg } := by
  refine ⟨h.row, ?_⟩
  intro r hr hpending
  rw [Table.rows_modify] at hr
  obtain ⟨r', hr', rfl⟩ := List.mem_map.mp hr
  by_cases hid : r'.id = id
  · rw [if_pos hid] at hpending
    exact absurd hpending (hstatus r')
  · rw [if_neg hid] at hpending ⊢
    exact h.unqueued r' hr' hpending

theorem Out.effect (h : Out a w) (hst : ¬QueuesFor a st) (env : Env) :
    Out a (World.effect st env w) := by
  cases st with
  | insertRecipient campaignID email =>
    simp only [World.effect]
    split
    · exact h
    · refine ⟨h.row, ?_⟩
      intro r hr hpending
      rcases Table.mem_insert hr with hold | rfl
      · exact h.unqueued r hold hpending
      · exact hst
  | recipientFailed id message now =>
    exact h.modify id (failedRecipient_id message now) fun r => by simp [failedRecipient]
  | recipientSent id now =>
    exact h.modify id (sentRecipient_id now) fun r => by simp [sentRecipient]
  | issueToken email token =>
    simp only [World.effect]
    split
    · obtain ⟨u, hu, hsame⟩ := h.row
      have hu' : u ∈ (w.unsubscribes.insert ⟨email, token⟩).rows := Table.mem_insert_of_mem hu
      refine ⟨⟨if u.email = email then renewedToken token u else u, ?_, ?_⟩, h.unqueued⟩
      · rw [Table.rows_modify]
        exact List.mem_map_of_mem hu'
      · split
        · exact hsame
        · exact hsame
    · exact h
  | sendEmail m =>
    simp only [World.effect]
    split
    · exact h.congr rfl rfl
    · exact h
  | upsertContact p =>
    simp only [World.effect]
    split
    · exact h.congr rfl rfl
    · exact h
  | _ => exact h.congr rfl rfl

theorem Out.autocommit (h : Out a w) (hst : ¬QueuesFor a st) (env : Env) :
    Out a (engine.autocommit st env w) := by
  rw [autocommit_eq]
  split
  · exact h
  · exact h.effect hst env

theorem Out.count (h : Out a w) {b : String} (hb : lower b = lower a) :
    0 < w.countUnsubscribed b := by
  obtain ⟨u, hu, hsame⟩ := h.row
  exact List.countP_pos_iff.mpr ⟨u, hu, decide_eq_true (hsame.trans hb.symm)⟩

/-- Neither queues the address nor sends to it. -/
def Fine (a : String) (st : Stmt) : Prop := ¬QueuesFor a st ∧ sendsTo a (.stmt .pool st) = false

/-- What a call finds and promises once the address is out. -/
def afterwards (a : String) : Setting (Cmd Stmt) (Answer Reply) World :=
  keeping engine (Out a) (fun c env => checked a c env = true) fun c =>
    Among (fun st => ¬QueuesFor a st) c ∧ sendsTo a c = false

section Rules

variable {α : Type} {R : Except Err α → World → Prop}

theorem meets_fine {f : Reply st → MarketingCall α} (hst : Fine a st)
    (hnext : ∀ env u v, Out a u → Out a v → checked a (.stmt .pool st) env = true →
      Meets (afterwards a) R (f (World.answer env u st)) v) :
    Meets (afterwards a) R ((query st).bind f) w := by
  apply Meets.ask_bind
  rintro u hrely r v ⟨hu, env, hchecked, hperform⟩
  cases hperform
  exact ⟨⟨⟨st, rfl, hst.1⟩, hst.2⟩, hnext env u _ hu (hu.autocommit hst.1 env) hchecked⟩

theorem meets_of_fine {p : MarketingCall α} (hp : Issues (Among (Fine a)) p) (hw : Out a w) :
    Meets (afterwards a) (fun _ => Out a) p w := by
  refine Meets.of_issues (fun u v hrely hu => hrely hu) ?_ hp hw
  rintro _ u r v ⟨st, rfl, hst⟩ hu ⟨-, env, -, hperform⟩
  cases hperform
  exact ⟨⟨⟨st, rfl, hst.1⟩, hst.2⟩, hu.autocommit hst.1 env⟩

theorem meets_of_idle {p : MarketingCall α} (hp : Issues (Among Idle) p) (hw : Out a w) :
    Meets (afterwards a) (fun _ => Out a) p w := by
  refine meets_of_fine (hp.mono ?_) hw
  rintro _ ⟨st, rfl, hqueues, hsends⟩
  refine ⟨st, rfl, ?_, ?_⟩
  · cases st with
    | insertRecipient campaignID email => cases hqueues
    | _ => exact id
  · cases st with
    | sendEmail m => cases hsends
    | _ => rfl

end Rules

theorem fine_of_serves {i : Option Int} {b : String} (hb : lower b ≠ lower a) (st : Stmt)
    (h : Worker.Serves i b st) : Fine a st := by
  cases st with
  | insertRecipient campaignID email => exact False.elim h
  | sendEmail m =>
    refine ⟨id, decide_eq_false ?_⟩
    rw [h.1]
    exact hb
  | _ => exact ⟨id, rfl⟩

theorem fine_of_general (st : Stmt) (h : Worker.General st) : Fine a st := by
  cases st with
  | insertRecipient campaignID email => exact False.elim (h none "")
  | sendEmail m =>
    have hempty := (h none "").1
    have hblank := (h none " ").1
    rw [hempty] at hblank
    exact absurd hblank (by decide)
  | _ => exact ⟨id, rfl⟩

theorem meets_filterUnsubscribed (emails : List String) :
    Meets (afterwards a) (fun x v => Out a v ∧
      ∀ kept, x = .ok kept → ∀ e ∈ kept, lower e ≠ lower a) (filterUnsubscribed emails) w := by
  refine meets_fine ⟨id, rfl⟩ ?_
  intro env u v hu hv _
  apply Meets.ofExcept_bind
  · intro unsubscribed hread v' hrely
    refine ⟨hrely hv, ?_⟩
    rintro _ ⟨⟩ e he hsame
    have hrows : u.unsubscribes.rows.map Unsubscribe.email = unsubscribed := by
      have hanswer : World.answer env u .unsubscribedEmails =
          answered env.fate .database (.ok (u.unsubscribes.rows.map Unsubscribe.email)) := rfl
      rw [hanswer, answered] at hread
      split at hread
      · exact Except.ok.inj hread
      · cases hread
    obtain ⟨x, hx, hrow⟩ := hu.row
    obtain ⟨-, hkept⟩ := List.mem_filter.mp he
    apply of_decide_eq_true hkept
    rw [hsame, ← hrow, ← hrows]
    exact List.mem_map_of_mem (List.mem_map_of_mem hx)
  · intro err _ v' hrely
    exact ⟨hrely hv, fun kept h => by cases h⟩

/-- Nothing is left to be promised. -/
def Anyhow {α : Type} : Except Err α → World → Prop := fun _ _ => True

theorem anyhow_of_fine {α : Type} {p : MarketingCall α} (hp : Issues (Among (Fine a)) p)
    (hw : Out a w) : Meets (afterwards a) Anyhow p w :=
  (meets_of_fine hp hw).mono fun _ _ _ => trivial

theorem meets_sendCampaign (uuid : String) :
    Meets (afterwards a) Anyhow (sendCampaign uuid) w := by
  refine meets_fine ⟨id, rfl⟩ ?_
  intro env u v _ hv _
  have hloaded : Issues (Among Idle)
      (wrapping "campaign not found" (succeed (World.answer env u (.getCampaign uuid)))) :=
    (Issues.ofExcept _).mapError _
  refine Meets.seq (meets_of_idle hloaded hv) ?_ fun _ _ _ => trivial
  intro campaign v hv
  show Meets _ _ (if campaign.status = .draft ∨ campaign.status = .paused then _ else _) v
  split
  · refine Meets.seq (meets_of_idle
      ((Calls.issues_resolveAudience campaign.audience).mapError _) hv)
      ?_ fun _ _ _ => trivial
    intro audience v hv
    refine Meets.bind (Meets.mapError ((meets_filterUnsubscribed audience).mono ?_))
    intro x v hx
    cases x with
    | error e => exact trivial
    | ok emails =>
      show Meets _ _ (if emails.isEmpty = true then _ else _) v
      split
      · exact fun _ _ => trivial
      · have hqueueing : Issues (Among (Fine a)) (insertRecipients campaign.id emails) :=
          Calls.issues_queueing campaign.id fun e he => ⟨hx.2 emails rfl e he, rfl⟩
        refine Meets.seq (meets_of_fine hqueueing hx.1) ?_ fun _ _ _ => trivial
        intro _ v hv
        refine anyhow_of_fine ?_ hv
        refine Worker.issues_query ⟨id, rfl⟩ fun now => Worker.issues_query ⟨id, rfl⟩ fun done => ?_
        exact (Issues.ofExcept done).mapError _
  · exact fun _ _ => trivial

theorem issues_sendToRecipients (c : Campaign) {recipients : List Recipient}
    (h : ∀ r ∈ recipients, lower r.email ≠ lower a) (remaining : Int) :
    Issues (Among (Fine a)) (s.sendToRecipients c recipients remaining) := by
  refine Worker.issues_sendToRecipients s c (fun r hr => ?_) remaining
  refine (Worker.issues_sendToRecipient s c r).mono ?_
  rintro _ ⟨st, rfl, hserves⟩
  exact ⟨st, rfl, fine_of_serves (h r hr) st hserves⟩

/-- Who is out is not among those that wait. -/
theorem Out.pending (h : Out a w) {campaignID limit : Int} {r : Recipient}
    (hr : r ∈ w.pendingRecipients campaignID limit) : lower r.email ≠ lower a := by
  have hranked := List.mem_reverse.mp (List.mem_of_mem_take hr)
  obtain ⟨hmem, hpending⟩ := List.mem_filter.mp (RankedListings.mem_ranked.mp hranked)
  simp only [isPending, Bool.and_eq_true, decide_eq_true_eq] at hpending
  exact h.unqueued r hmem hpending.2

theorem meets_sendCampaigns (campaigns : List Campaign) (remaining : Int) (hw : Out a w) :
    Meets (afterwards a) (fun _ => Out a) (s.sendCampaigns campaigns remaining) w := by
  induction campaigns generalizing remaining w with
  | nil => exact fun v hrely => hrely hw
  | cons c rest ih =>
    rw [Mailer.sendCampaigns]
    split
    · exact fun v hrely => hrely hw
    · refine meets_fine ⟨id, rfl⟩ ?_
      intro env u v hu hv _
      cases hfound : World.answer env u
          (.pendingRecipients c.id (if remaining > 10 then 10 else remaining)) with
      | error e => exact ih remaining hv
      | ok recipients =>
        show Meets _ _ (if recipients.isEmpty = true then _ else _) v
        split
        · refine Meets.seq (meets_of_fine ?_ hv) (fun _ v hv => ih remaining hv) fun _ _ hv => hv
          exact Worker.issues_completeCampaign fine_of_general c.id
        · have hout : ∀ r ∈ recipients, lower r.email ≠ lower a := by
            have hanswer : World.answer env u
                (.pendingRecipients c.id (if remaining > 10 then 10 else remaining)) =
              answered env.fate .database (.ok (u.pendingRecipients c.id
                (if remaining > 10 then 10 else remaining))) := rfl
            rw [hanswer, answered] at hfound
            split at hfound
            · obtain rfl := Except.ok.inj hfound
              exact fun r hr => hu.pending hr
            · cases hfound
          exact Meets.seq (meets_of_fine (issues_sendToRecipients c hout remaining) hv)
            (fun left v hv => ih left hv) fun _ _ hv => hv

theorem meets_processQueue (hw : Out a w) :
    Meets (afterwards a) (fun _ => Out a) s.processQueue w := by
  have hquota := (Worker.issues_getRemainingQuota (fine_of_general (a := a)) s).attempt
  refine Meets.seq (meets_of_fine hquota hw) ?_ fun _ _ hv => hv
  intro quota v hv
  cases quota with
  | error e => exact fun v' hrely => hrely hv
  | ok remaining =>
    show Meets _ _ (if remaining ≤ 0 then _ else _) v
    split
    · exact fun v' hrely => hrely hv
    · refine meets_fine ⟨id, rfl⟩ ?_
      intro env u v _ hv _
      cases World.answer env u .sendingCampaigns with
      | error e => exact fun v' hrely => hrely hv
      | ok campaigns => exact meets_sendCampaigns campaigns remaining hv

/-- The check of an address that is out finds its row. -/
theorem meets_processOneEnrollment (e : Enrollment) (skip : Bool) (hw : Out a w) :
    Meets (afterwards a) (fun _ => Out a) (s.processOneEnrollment e skip) w := by
  by_cases hsame : lower e.email = lower a
  · refine meets_fine ⟨id, rfl⟩ ?_
    intro env u v hu hv hchecked
    have hdone : env.fate = .done := by
      simpa [checked, hsame] using hchecked
    have hanswer : World.answer env u (.countUnsubscribed e.email) =
        .ok (u.countUnsubscribed e.email) := answered_done hdone _ _
    have hcount : counted (World.answer env u (.countUnsubscribed e.email)) > 0 := by
      rw [hanswer]
      exact hu.count hsame
    show Meets _ _ (if counted (World.answer env u (.countUnsubscribed e.email)) > 0
      then _ else _) v
    rw [if_pos hcount]
    refine meets_of_fine ?_ hv
    exact Worker.issues_query ⟨id, rfl⟩ fun _ => .ret _
  · refine meets_of_fine ((Worker.issues_processOneEnrollment s skip).mono ?_) hw
    rintro _ ⟨st, rfl, hserves⟩
    exact ⟨st, rfl, fine_of_serves hsame st hserves⟩

theorem meets_each (due : List (Enrollment × Bool)) (hw : Out a w) :
    Meets (afterwards a) (fun _ => Out a)
      (Prog.each (fun d => s.processOneEnrollment d.1 d.2) due) w := by
  induction due generalizing w with
  | nil => exact fun v hrely => hrely hw
  | cons d due ih =>
    exact Meets.seq (meets_processOneEnrollment d.1 d.2 hw) (fun _ v hv => ih hv) fun _ _ hv => hv

theorem meets_tick (hw : Out a w) : Meets (afterwards a) Anyhow s.tick w := by
  refine Meets.seq (meets_processQueue hw) ?_ fun _ _ _ => trivial
  intro _ v hv
  have hquota := (Worker.issues_getRemainingQuota (fine_of_general (a := a)) s).attempt
  refine Meets.seq (meets_of_fine hquota hv) ?_ fun _ _ _ => trivial
  intro quota v hv
  cases quota with
  | error e => exact fun _ _ => trivial
  | ok remaining =>
    show Meets _ _ (if remaining ≤ 0 then _ else _) v
    split
    · exact fun _ _ => trivial
    · refine meets_fine ⟨id, rfl⟩ ?_
      intro env u v _ hv _
      cases World.answer env u (.dueEnrollments (if remaining > Mailer.batchPerTick then
          Mailer.batchPerTick else remaining)) with
      | error e => exact fun _ _ => trivial
      | ok due => exact (meets_each due hv).mono fun _ _ _ => trivial

theorem meets_program (l : MarketingLabel) (hw : Out a w) :
    Meets (afterwards a) Anyhow (s.program l) w := by
  by_cases htick : l = .tick
  · rw [htick]
    exact meets_tick hw
  · by_cases hcampaign : ∃ uuid, l = .sendCampaign uuid
    · obtain ⟨uuid, rfl⟩ := hcampaign
      exact meets_sendCampaign uuid
    · have hidle := s.issues_idle (fun uuid h => hcampaign ⟨uuid, h⟩) htick
      exact (meets_of_idle hidle hw).mono fun _ _ _ => trivial

/-- Threads of other calls than the sending of a campaign queue nobody. -/
theorem issues_old {th : Thread Stmt Reply Env World Empty Err MarketingLabel}
    (hfollows : Issues (Among fun st =>
      (∀ uuid, th.label ≠ .sendCampaign uuid) → queues st = false) th.prog)
    (hsettled : queueing th.label = true → running th.prog = false) :
    Issues (Among fun st => ¬QueuesFor a st) th.prog := by
  by_cases hcampaign : ∃ uuid, th.label = .sendCampaign uuid
  · obtain ⟨uuid, hlabel⟩ := hcampaign
    have hover := hsettled (by rw [hlabel]; rfl)
    cases hprog : th.prog with
    | ret x => exact .ret x
    | fail e => exact .fail e
    | call c k =>
      rw [hprog] at hover
      cases hover
  · refine hfollows.mono ?_
    rintro _ ⟨st, rfl, hqueues⟩
    refine ⟨st, rfl, ?_⟩
    have hnone := hqueues fun uuid h => hcampaign ⟨uuid, h⟩
    cases st with
    | insertRecipient campaignID email => cases hnone
    | _ => exact id

/-- Where the token is stored and stays, nothing is queued and no check is skipped, the link
works and opting out lasts. -/
theorem opt_out_honoured (s : Mailer) (w : World) (m : Email) (earlier : List MarketingEvent)
    (e : MarketingEvent) (between later : List MarketingEvent)
    (h : Clear s w m earlier e between later) : Honoured s w m earlier e between later := by
  intro _
  obtain ⟨address, hstored, hsame, hkept⟩ := h.stored
  have hplain := (Plain.invariant s.singles (I := fun _ => True) (fun _ _ _ _ _ _ => trivial)
    (plain_of_no_threads w) (Along.of_always s.system (fun _ _ => trivial) earlier) trivial).1
  have htoken := emailOfToken_along hplain hkept hstored
  have hopted := (Plain.invariant s.singles (I := fun _ => True) (fun _ _ _ _ _ _ => trivial)
    (plain_of_no_threads w)
      (Along.of_always s.system (fun _ _ => trivial) (earlier ++ e :: between))
    trivial).1
  rw [← run_append] at htoken
  refine ⟨unsubscribe_isOk htoken, ?_⟩
  have hout : Out m.recipient (s.system.run ⟨w, []⟩ (earlier ++ e :: between)).world := by
    obtain ⟨u, hfound, hemail⟩ := Option.map_eq_some_iff.mp htoken
    refine ⟨⟨u, List.mem_of_find?_eq_some hfound, ?_⟩, h.unqueued⟩
    rw [hemail, hsame]
  have hfollows := follows_run s.singles s.issues_program w (earlier ++ e :: between)
  refine later_along s.singles (P := Among fun st => ¬QueuesFor m.recipient st) ?_ ?_
    (fun l w hw => meets_program l hw) hopted hout ?_ h.answered
  · rintro _ env u ⟨st, ⟨⟩, hst⟩ hu
    exact hu.autocommit hst env
  · intro move u hu
    cases move <;> exact hu.congr rfl rfl
  · intro th hth
    exact issues_old (hfollows th hth) (h.settled th hth)

namespace TwoCampaigns

def mailer : Mailer := ⟨.cet, []⟩

def campaign (id : Int) : Campaign :=
  ⟨id, "c", "News", "<p>Hello</p>", .all, .sending, 1, 0, 0, 1, 0, some id, none⟩

/-- One campaign waits for an address, and the quota of the day has room for one email. -/
def tables : World :=
  { World.empty with
    campaigns := World.empty.campaigns.insert (campaign 1)
    recipients := World.empty.recipients.insert ⟨1, 1, "a@x.example", .pending, none, none⟩
    quotas := World.empty.quotas.insert ⟨-1, 79, 80⟩
    dailyLimit := some ⟨80, by omega⟩ }

/-- Another campaign waits for the address too. -/
def queuedTwice : World :=
  { tables with
    campaigns := tables.campaigns.insert (campaign 2)
    recipients := tables.recipients.insert ⟨2, 2, "a@x.example", .pending, none, none⟩ }

def email : Email :=
  ⟨"a@x.example", "News", TextSearch.utf8 "<p>Hello</p>".toList ++ footer (unsubLink "t-1"),
    "marketing_campaign", "t-1", .campaign 1⟩

def turn (i : ℕ) (token : String) : MarketingEvent := .exec i { text := token }

def earlier : List MarketingEvent := .start .tick :: List.replicate 7 (turn 0 "t-1")

def between : List MarketingEvent := List.replicate 9 (turn 0 "t-1")

/-- The link is followed, and the next tick comes on another day. -/
def later : List MarketingEvent :=
  [.start (.unsubscribe "t-1"), turn 1 "", turn 1 "", .move (.pass 86400000000000),
    .start .tick] ++ List.replicate 18 (turn 2 "t-2")

end TwoCampaigns

open TwoCampaigns in
theorem opt_out_honoured_once :
    GoesOut mailer email (mailer.system.run ⟨tables, []⟩ earlier) (turn 0 "t-1") ∧
      Honoured mailer tables email earlier (turn 0 "t-1") between later := by
  refine ⟨by decide +kernel, opt_out_honoured mailer tables email earlier _ between later ?_⟩
  refine ⟨⟨"a@x.example", ?_, ?_, ?_⟩, ?_, ?_, ?_⟩
  · decide +kernel
  · decide +kernel
  · decide +kernel
  · decide +kernel
  · decide +kernel
  · decide +kernel

open TwoCampaigns in
/-- A recipient that waits in another campaign is sent to after opting out. -/
theorem second_campaign_sends :
    ¬Honoured mailer queuedTwice email earlier (turn 0 "t-1") between later := by
  intro h
  have hout : GoesOut mailer email (mailer.system.run ⟨queuedTwice, []⟩ earlier)
    (turn 0 "t-1") := by
    decide +kernel
  have hagain := (h hout).2
  revert hagain
  decide +kernel

end OptOut

end Marketing

end CryptoLink
