import CryptoLink.Guarantees.UsageVolume
import CryptoLink.Library.Outcomes
import CryptoLink.Library.Tallies
import CryptoLink.Subscriptions.Months

/-!
# The accounts of usage

A confirmed payment is counted by an update of the row of its month. Where there
is no row the call creates it and updates again, and the checks of the limits
create it too. Whoever comes second to create a row fails, and its payment is
not counted; no payment is ever counted twice.
-/

namespace CryptoLink

open KeyedTables ReadCommitted StatementPrograms RankedListings System Tallies

namespace Subscription

inductive UsageCall where
  | incrementPaymentUsage (merchantID volumeUSD : Int)
  | enforceLimits (merchantID : Int) (price : ℚ)
  deriving DecidableEq, Repr

namespace UsageCall

def merchantID : UsageCall → Int
  | .incrementPaymentUsage m _ => m
  | .enforceLimits m _ => m

/-- The volume of the payment that is to be counted. -/
def due : UsageCall → Option Int
  | .incrementPaymentUsage _ volumeUSD => some volumeUSD
  | .enforceLimits _ _ => none

def program : UsageCall → SubscriptionCall Unit
  | .incrementPaymentUsage m volumeUSD => Subscription.incrementPaymentUsage m volumeUSD
  | .enforceLimits m price => Subscription.enforceLimits m price

end UsageCall

/-- Confirmations and checks of any merchants side by side, and time passes. -/
def usageCalls : System SubscriptionStmt SubscriptionReply SubscriptionEnv SubscriptionWorld Empty
    Err UsageCall ℕ where
  engine := subscriptionEngine
  program := UsageCall.program
  move elapsed w := { w with clock := w.clock + elapsed }

abbrev UsageConfig :=
  Config SubscriptionStmt SubscriptionReply SubscriptionEnv SubscriptionWorld Empty Err UsageCall

abbrev UsageThread :=
  Thread SubscriptionStmt SubscriptionReply SubscriptionEnv SubscriptionWorld Empty Err UsageCall

abbrev UsageEvent := Event SubscriptionEnv ℕ UsageCall

def isOver : SubscriptionCall Unit → Bool
  | .call _ _ => false
  | _ => true

/-- The row of a merchant's month. -/
def monthKey (m k : Int) : UsageKey := ⟨m, Calendar.startOf k⟩

def paymentCount (key : UsageKey) (w : SubscriptionWorld) : Int :=
  match w.usage.get key with
  | none => 0
  | some u => u.paymentCount

/-- Every row is the row of a month, all of it but the last second. -/
def Monthly (w : SubscriptionWorld) : Prop :=
  ∀ u ∈ w.usage.rows, ∃ k, u.key.periodStart = Calendar.startOf k ∧
    u.periodEnd = Calendar.startOf (k + 1) - Calendar.second

/-- What a call is worth to month `k` of merchant `m`, if `counted` are the months
the calls are counted in. -/
def booked (counted : ℕ → Option Int) (f : Int → Int) (m k : Int) (i : ℕ) (th : UsageThread) :
    Int :=
  if th.label.merchantID = m ∧ counted i = some k then (th.label.due.map f).getD 0 else 0

/-- The counters of every month grew by the calls that are counted in it, one and
its volume for each, and no two rows of a merchant share an instant. -/
structure Ledger (w : SubscriptionWorld) (cfg : UsageConfig) (counted : ℕ → Option Int) :
    Prop where
  counts : ∀ m k, paymentCount (monthKey m k) cfg.world =
    paymentCount (monthKey m k) w + tally (booked counted (fun _ => 1) m k) cfg.threads
  volumes : ∀ m k, volume (monthKey m k) cfg.world =
    volume (monthKey m k) w + tally (booked counted id m k) cfg.threads
  apart : ∀ u ∈ cfg.world.usage.rows, ∀ u' ∈ cfg.world.usage.rows, ∀ m t,
    SubscriptionWorld.isCurrentUsage m t u = true → SubscriptionWorld.isCurrentUsage m t u' = true →
      u = u'

/-- An instant of month `k` that is not in its last second. -/
def WithinMonth (k t : Int) : Prop :=
  Calendar.monthOf t = k ∧ t ≤ Calendar.startOf (k + 1) - Calendar.second

instance (k t : Int) : Decidable (WithinMonth k t) :=
  inferInstanceAs (Decidable (Calendar.monthOf t = k ∧
    t ≤ Calendar.startOf (k + 1) - Calendar.second))

/-- A clock reading lies in month `k`, the insert of a period meets no row and is
answered, and an update fits and is answered, or did reach a row. -/
def regular (k : Int) (env : SubscriptionEnv) (w : SubscriptionWorld) : Cmd SubscriptionStmt → Prop
  | .stmt _ .timeNow => WithinMonth k (w.answer env .timeNow)
  | .stmt _ (.createUsagePeriod m periodStart _ _ _) =>
      env.fate = .done ∧ w.usageFits ⟨m, periodStart⟩ = true
  | .stmt _ (.incrementPaymentUsage m volumeUSD now) => w.incrementFits m volumeUSD now = true ∧
      (env.fate = .done ∨ env.fate = .unanswered ∧ w.currentUsage m now ≠ [])
  | _ => True

instance (k : Int) (env : SubscriptionEnv) (w : SubscriptionWorld) (c : Cmd SubscriptionStmt) :
    Decidable (regular k env w c) := by
  delta regular
  induction c using Cmd.casesOn with
  | stmt conn st => induction st using SubscriptionStmt.casesOn <;> infer_instance
  | _ => infer_instance

/-- The lucky calls are not cut off, and each of their statements is regular. What
becomes of the others is left open. -/
def Lucky (months : ℕ → Int) (lucky : ℕ → Prop) (cfg : UsageConfig) (e : UsageEvent) : Prop :=
  e.Uncut lucky ∧ ∀ a ∈ usageCalls.executing cfg e, lucky a.index →
    regular (months a.index) a.env cfg.world a.cmd

instance (months : ℕ → Int) (lucky : ℕ → Prop) [DecidablePred lucky] (cfg : UsageConfig)
    (e : UsageEvent) : Decidable (Lucky months lucky cfg e) :=
  inferInstanceAs (Decidable (e.Uncut lucky ∧ ∀ a ∈ usageCalls.executing cfg e, lucky a.index →
    regular (months a.index) a.env cfg.world a.cmd))

section Rows

variable {w : SubscriptionWorld} {m k now : Int}

theorem startOf_strictMono : StrictMono Calendar.startOf := by
  intro a b h
  have hday : 0 < Calendar.day := by decide
  exact Int.mul_lt_mul_of_pos_right (Calendar.firstDay_strictMono h) hday

theorem monthKey_inj {m' k' : Int} (h : monthKey m k = monthKey m' k') : m = m' ∧ k = k' := by
  rw [monthKey, monthKey, UsageKey.mk.injEq] at h
  exact ⟨h.1, startOf_strictMono.injective h.2⟩

/-- The rows an update reaches. -/
theorem Monthly.current_iff (h : Monthly w) {u : UsageTracking} (hu : u ∈ w.usage.rows) :
    SubscriptionWorld.isCurrentUsage m now u = true ↔
      u.key = monthKey m (Calendar.monthOf now) ∧ WithinMonth (Calendar.monthOf now) now := by
  obtain ⟨k, hstart, hend⟩ := h u hu
  have hsecond : 0 < Calendar.second := by decide
  rw [SubscriptionWorld.isCurrentUsage, Bool.and_eq_true, Bool.and_eq_true, decide_eq_true_eq,
    decide_eq_true_eq, decide_eq_true_eq, hstart, hend]
  constructor
  · rintro ⟨⟨hm, hlow⟩, hhigh⟩
    have hmonth : Calendar.monthOf now = k := Calendar.monthOf_eq_iff.mpr ⟨hlow, by omega⟩
    refine ⟨?_, rfl, ?_⟩
    · rw [monthKey, hmonth, ← hstart, ← hm]
    · rw [hmonth]
      exact hhigh
  · rintro ⟨hkey, -, hhigh⟩
    rw [hkey, monthKey] at hstart
    have hmonth : Calendar.monthOf now = k := startOf_strictMono.injective hstart
    obtain ⟨hlow, -⟩ := Calendar.monthOf_eq_iff.mp hmonth
    rw [hmonth] at hhigh
    exact ⟨⟨by rw [hkey, monthKey], hlow⟩, hhigh⟩

theorem Monthly.apart (h : Monthly w) {u u' : UsageTracking} (hu : u ∈ w.usage.rows)
    (hu' : u' ∈ w.usage.rows) (hcurrent : SubscriptionWorld.isCurrentUsage m now u = true)
    (hcurrent' : SubscriptionWorld.isCurrentUsage m now u' = true) : u = u' := by
  have hkey := ((h.current_iff hu).mp hcurrent).1
  have hkey' := ((h.current_iff hu').mp hcurrent').1
  exact Table.eq_of_key_eq hu hu' (hkey.trans hkey'.symm)

/-- There is a row of the month. -/
def HasMonth (m k : Int) (w : SubscriptionWorld) : Prop := ∃ u ∈ w.usage.rows, u.key = monthKey m k

theorem HasMonth.current (h : HasMonth m k w) (hw : Monthly w) (hnow : WithinMonth k now) :
    w.currentUsage m now ≠ [] := by
  obtain ⟨u, hu, hkey⟩ := h
  have hmonth : Calendar.monthOf now = k := hnow.1
  have hcurrent : SubscriptionWorld.isCurrentUsage m now u = true := by
    rw [hw.current_iff hu, hmonth]
    exact ⟨hkey, hnow⟩
  exact List.ne_nil_of_mem (List.mem_filter.mpr ⟨hu, hcurrent⟩)

theorem Monthly.current_cases (h : Monthly w) (hsome : w.currentUsage m now ≠ []) :
    HasMonth m (Calendar.monthOf now) w ∧ WithinMonth (Calendar.monthOf now) now := by
  obtain ⟨u, hu⟩ := List.exists_mem_of_ne_nil _ hsome
  obtain ⟨hmem, hcurrent⟩ := List.mem_filter.mp hu
  obtain ⟨hkey, hwithin⟩ := (h.current_iff hmem).mp hcurrent
  exact ⟨⟨u, hmem, hkey⟩, hwithin⟩

theorem Monthly.congr {w' : SubscriptionWorld} (h : Monthly w) (hsame : w'.usage = w.usage) :
    Monthly w' := by
  rw [Monthly, hsame]
  exact h

theorem HasMonth.congr {w' : SubscriptionWorld} (h : HasMonth m k w) (hsame : w'.usage = w.usage) :
    HasMonth m k w' := by
  rw [HasMonth, hsame]
  exact h

end Rows

section Statements

variable {w w' : SubscriptionWorld} {m k volumeUSD now : Int}

/-- The rows of months stay, and others come. -/
structure Grown (w w' : SubscriptionWorld) : Prop where
  monthly : Monthly w → Monthly w'
  months : ∀ m k, HasMonth m k w → HasMonth m k w'

/-- A payment of merchant `m` is counted in month `k`. -/
structure Counted (m k volumeUSD : Int) (w w' : SubscriptionWorld) : Prop where
  counts : ∀ m' k', paymentCount (monthKey m' k') w' =
    paymentCount (monthKey m' k') w + if m = m' ∧ k = k' then 1 else 0
  volumes : ∀ m' k', volume (monthKey m' k') w' =
    volume (monthKey m' k') w + if m = m' ∧ k = k' then volumeUSD else 0

/-- Nothing is counted. -/
structure Uncounted (w w' : SubscriptionWorld) : Prop where
  counts : ∀ key, paymentCount key w' = paymentCount key w
  volumes : ∀ key, volume key w' = volume key w

theorem Grown.of_same (h : w'.usage = w.usage) : Grown w w' :=
  ⟨fun hw => hw.congr h, fun _ _ hm => hm.congr h⟩

theorem Uncounted.of_same (h : w'.usage = w.usage) : Uncounted w w' := by
  constructor
  · intro key
    rw [paymentCount, h, paymentCount]
  · exact fun key => volume_congr h

/-- No increment, and a row that is created is the row of a month. -/
def Quiet : SubscriptionStmt → Prop
  | .incrementPaymentUsage _ _ _ => False
  | .createUsagePeriod _ periodStart periodEnd _ _ =>
      ∃ k, periodStart = Calendar.startOf k ∧
        periodEnd = Calendar.startOf (k + 1) - Calendar.second
  | _ => True

theorem usage_autocommit {st : SubscriptionStmt} (env : SubscriptionEnv) (w : SubscriptionWorld)
    (hsame : ∀ seen w : SubscriptionWorld,
      (SubscriptionWorld.effect st env seen w).usage = w.usage) :
    (subscriptionEngine.autocommit st env w).usage = w.usage := by
  by_cases hrefused : env.fate = .refused
  · rw [autocommit_refused hrefused]
  · rw [autocommit_landed hrefused, hsame]
    cases st <;> rfl

theorem usage_create (env : SubscriptionEnv) (w : SubscriptionWorld)
    (m periodStart periodEnd createdAt updatedAt : Int) :
    (subscriptionEngine.autocommit
      (.createUsagePeriod m periodStart periodEnd createdAt updatedAt) env w).usage = w.usage ∨
    (w.usage.get ⟨m, periodStart⟩ = none ∧ (subscriptionEngine.autocommit
      (.createUsagePeriod m periodStart periodEnd createdAt updatedAt) env w).usage =
        w.usage.insert (SubscriptionWorld.newUsage ⟨m, periodStart⟩ periodEnd createdAt
          updatedAt)) := by
  by_cases hrefused : env.fate = .refused
  · rw [autocommit_refused hrefused]
    exact .inl rfl
  rw [autocommit_landed hrefused, SubscriptionWorld.effect]
  by_cases hfits : w.usageFits ⟨m, periodStart⟩ = true
  · rw [if_pos hfits]
    rw [SubscriptionWorld.usageFits, Bool.and_eq_true] at hfits
    exact .inr ⟨Option.isNone_iff_eq_none.mp hfits.2, rfl⟩
  · rw [if_neg hfits]
    exact .inl rfl

/-- A row comes with nothing counted in it. -/
theorem create_effect {periodStart periodEnd createdAt updatedAt : Int}
    (hmonth : ∃ k, periodStart = Calendar.startOf k ∧
      periodEnd = Calendar.startOf (k + 1) - Calendar.second)
    (env : SubscriptionEnv) (w : SubscriptionWorld) :
    Grown w (subscriptionEngine.autocommit
        (.createUsagePeriod m periodStart periodEnd createdAt updatedAt) env w) ∧
      Uncounted w (subscriptionEngine.autocommit
        (.createUsagePeriod m periodStart periodEnd createdAt updatedAt) env w) := by
  have hvolumes : ∀ key, volume key (subscriptionEngine.autocommit
      (.createUsagePeriod m periodStart periodEnd createdAt updatedAt) env w) = volume key w :=
    fun key => volume_createUsagePeriod key m periodStart periodEnd createdAt updatedAt env w
  rcases usage_create env w m periodStart periodEnd createdAt updatedAt with hsame | ⟨hnone, hnew⟩
  · exact ⟨.of_same hsame, .of_same hsame⟩
  · refine ⟨⟨?_, ?_⟩, ⟨?_, hvolumes⟩⟩
    · intro hw u hu
      rw [hnew] at hu
      rcases Table.mem_insert hu with hold | rfl
      · exact hw u hold
      · exact hmonth
    · rintro m' k ⟨u, hu, hkey⟩
      refine ⟨u, ?_, hkey⟩
      rw [hnew]
      exact Table.mem_insert_of_mem hu
    · intro key
      rw [paymentCount, hnew]
      by_cases hkey : key = ⟨m, periodStart⟩
      · have hself : (w.usage.insert (SubscriptionWorld.newUsage ⟨m, periodStart⟩ periodEnd
            createdAt updatedAt)).get ⟨m, periodStart⟩ =
              some (SubscriptionWorld.newUsage ⟨m, periodStart⟩ periodEnd createdAt updatedAt) :=
          Table.get_insert_self w.usage hnone
        rw [hkey, hself, paymentCount, hnone]
        rfl
      · have hother : (w.usage.insert (SubscriptionWorld.newUsage ⟨m, periodStart⟩ periodEnd
            createdAt updatedAt)).get key = w.usage.get key :=
          Table.get_insert_of_ne w.usage hkey
        rw [hother, paymentCount]

theorem Quiet.effect {st : SubscriptionStmt} (h : Quiet st) (env : SubscriptionEnv)
    (w : SubscriptionWorld) :
    Grown w (subscriptionEngine.autocommit st env w) ∧
      Uncounted w (subscriptionEngine.autocommit st env w) := by
  cases st with
  | incrementPaymentUsage m volumeUSD now => exact h.elim
  | createUsagePeriod m periodStart periodEnd createdAt updatedAt => exact create_effect h env w
  | _ =>
    refine ⟨.of_same (usage_autocommit env w fun seen w => ?_),
      .of_same (usage_autocommit env w fun seen w => ?_)⟩
    all_goals
      simp only [SubscriptionWorld.effect]
      repeat (first | rfl | split)

/-- An update adds to the rows it reaches, which are those of one month. -/
theorem usage_increment (env : SubscriptionEnv) (w : SubscriptionWorld)
    (hlanded : env.fate ≠ .refused)
    (hfits : w.incrementFits m volumeUSD now = true) :
    (subscriptionEngine.autocommit (.incrementPaymentUsage m volumeUSD now) env w).usage =
      w.usage.updateWhere (SubscriptionWorld.isCurrentUsage m now)
        (SubscriptionWorld.incrementedUsage volumeUSD now)
        (SubscriptionWorld.incrementedUsage_key volumeUSD now) := by
  rw [autocommit_landed hlanded, SubscriptionWorld.effect, if_pos hfits]
  rfl

theorem grown_increment (env : SubscriptionEnv) (w : SubscriptionWorld) :
    Grown w (subscriptionEngine.autocommit (.incrementPaymentUsage m volumeUSD now) env w) := by
  by_cases hlanded : env.fate = .refused
  · rw [autocommit_refused hlanded]
    exact .of_same rfl
  by_cases hfits : w.incrementFits m volumeUSD now = true
  · have hrows := usage_increment env w hlanded hfits
    constructor
    · intro hw u hu
      rw [hrows, Table.rows_updateWhere] at hu
      obtain ⟨u', hu', rfl⟩ := List.mem_map.mp hu
      split
      · exact hw u' hu'
      · exact hw u' hu'
    · rintro m' k ⟨u, hu, hkey⟩
      refine ⟨if SubscriptionWorld.isCurrentUsage m now u = true then
        SubscriptionWorld.incrementedUsage volumeUSD now u else u, ?_, ?_⟩
      · rw [hrows, Table.rows_updateWhere]
        exact List.mem_map_of_mem hu
      · split
        · exact hkey
        · exact hkey
  · rw [autocommit_landed hlanded, SubscriptionWorld.effect, if_neg hfits]
    exact .of_same rfl

/-- The counters of a row after an update that lands. -/
theorem get_increment (hw : Monthly w) {env : SubscriptionEnv} (hlanded : env.fate ≠ .refused)
    (hfits : w.incrementFits m volumeUSD now = true) (m' k' : Int) :
    (subscriptionEngine.autocommit (.incrementPaymentUsage m volumeUSD now) env w).usage.get
        (monthKey m' k') =
      (w.usage.get (monthKey m' k')).map fun u =>
        if (m = m' ∧ Calendar.monthOf now = k') ∧ WithinMonth (Calendar.monthOf now) now then
          SubscriptionWorld.incrementedUsage volumeUSD now u
        else u := by
  rw [usage_increment env w hlanded hfits, Table.get_updateWhere]
  cases hget : w.usage.get (monthKey m' k') with
  | none => rfl
  | some u =>
    obtain ⟨hu, hkey⟩ := Table.get_eq_some hget
    have hcurrent : SubscriptionWorld.isCurrentUsage m now u = true ↔
        (m = m' ∧ Calendar.monthOf now = k') ∧ WithinMonth (Calendar.monthOf now) now := by
      rw [hw.current_iff hu, hkey]
      constructor
      · rintro ⟨hsame, hwithin⟩
        obtain ⟨hm, hk⟩ := monthKey_inj hsame
        exact ⟨⟨hm.symm, hk.symm⟩, hwithin⟩
      · rintro ⟨⟨rfl, rfl⟩, hwithin⟩
        exact ⟨rfl, hwithin⟩
    simp only [Option.map_some, hcurrent]

theorem paymentCount_eq (key : UsageKey) (w : SubscriptionWorld) :
    paymentCount key w = ((w.usage.get key).map UsageTracking.paymentCount).getD 0 := by
  rw [paymentCount]
  cases w.usage.get key with
  | none => rfl
  | some u => rfl

theorem volume_eq (key : UsageKey) (w : SubscriptionWorld) :
    volume key w = ((w.usage.get key).map UsageTracking.paymentVolumeUSD).getD 0 := by
  rw [volume]
  cases w.usage.get key with
  | none => rfl
  | some u => rfl

/-- What an update adds to a counter of the row it reaches. -/
theorem counter_increment (hw : Monthly w) {env : SubscriptionEnv} (hlanded : env.fate ≠ .refused)
    (hfits : w.incrementFits m volumeUSD now = true) {u : UsageTracking}
    (hthere : w.usage.get (monthKey m (Calendar.monthOf now)) = some u)
    (hwithin : WithinMonth (Calendar.monthOf now) now) {f : UsageTracking → Int} {added : Int}
    (hf : ∀ u, f (SubscriptionWorld.incrementedUsage volumeUSD now u) = f u + added) (m' k' : Int) :
    (((subscriptionEngine.autocommit (.incrementPaymentUsage m volumeUSD now) env w).usage.get
        (monthKey m' k')).map f).getD 0 =
      ((w.usage.get (monthKey m' k')).map f).getD 0 +
        if m = m' ∧ Calendar.monthOf now = k' then added else 0 := by
  rw [get_increment hw hlanded hfits]
  by_cases hsame : m = m' ∧ Calendar.monthOf now = k'
  · obtain ⟨rfl, rfl⟩ := hsame
    rw [hthere, if_pos ⟨rfl, rfl⟩]
    simp [hwithin, hf]
  · rw [if_neg hsame, Int.add_zero]
    cases w.usage.get (monthKey m' k') with
    | none => rfl
    | some u' => simp [hsame]

/-- An update counts the payment in the month of its instant, or it counts nothing
and answers zero or an error. -/
theorem increment_cases (hw : Monthly w) (m volumeUSD now : Int) (env : SubscriptionEnv) :
    Uncounted w (subscriptionEngine.autocommit (.incrementPaymentUsage m volumeUSD now) env w) ∧
        (w.incrementFits m volumeUSD now = true → env.fate ≠ .refused →
          w.currentUsage m now = []) ∨
      Counted m (Calendar.monthOf now) volumeUSD w
        (subscriptionEngine.autocommit (.incrementPaymentUsage m volumeUSD now) env w) ∧
      WithinMonth (Calendar.monthOf now) now ∧
      subscriptionEngine.reply (.incrementPaymentUsage m volumeUSD now) env w ≠ .ok 0 := by
  by_cases hlanded : env.fate = .refused
  · left
    rw [autocommit_refused hlanded]
    exact ⟨.of_same rfl, fun _ h => absurd hlanded h⟩
  by_cases hfits : w.incrementFits m volumeUSD now = true
  · by_cases hnone : w.currentUsage m now = []
    · left
      refine ⟨.of_same ?_, fun _ _ => hnone⟩
      rw [usage_increment env w hlanded hfits]
      apply Table.ext_rows
      rw [Table.rows_updateWhere]
      refine (List.map_congr_left fun u hu => ?_).trans (List.map_id _)
      rw [if_neg]
      · rfl
      · intro hcurrent
        have hmem : u ∈ w.currentUsage m now := List.mem_filter.mpr ⟨hu, hcurrent⟩
        rw [hnone] at hmem
        cases hmem
    · right
      obtain ⟨⟨u, hu, hkey⟩, hwithin⟩ := hw.current_cases hnone
      have hthere : w.usage.get (monthKey m (Calendar.monthOf now)) = some u := by
        rw [← hkey]
        exact Table.get_of_mem hu
      refine ⟨⟨?_, ?_⟩, hwithin, ?_⟩
      · intro m' k'
        rw [paymentCount_eq, paymentCount_eq]
        exact counter_increment hw hlanded hfits hthere hwithin (fun _ => rfl) m' k'
      · intro m' k'
        rw [volume_eq, volume_eq]
        exact counter_increment hw hlanded hfits hthere hwithin (fun _ => rfl) m' k'
      · intro hreply
        have hanswered : Except.ok (w.currentUsage m now).length = (.ok 0 : Except Err ℕ) := by
          simp only [subscriptionEngine, SubscriptionWorld.answer, hfits, if_true] at hreply
          exact (answered_eq_ok hreply).2
        exact hnone (List.length_eq_zero_iff.mp (Except.ok.inj hanswered))
  · left
    rw [autocommit_landed hlanded, SubscriptionWorld.effect, if_neg hfits]
    exact ⟨.of_same rfl, fun h => absurd h hfits⟩

end Statements

section Programs

variable {m k volumeUSD : Int} {due : Option Int} {α : Type}

/-- A program that has counted nothing yet. It goes on after an update only if the
update reached no row. -/
inductive Owes (m : Int) (due : Option Int) : SubscriptionCall Unit → Prop
  | ret : Owes m due (.ret ())
  | fail (e : Err) : Owes m due (.fail e)
  | quiet (st : SubscriptionStmt) (k : SubscriptionReply st → SubscriptionCall Unit)
      (quiet : Quiet st) (rest : ∀ r, Owes m due (k r)) : Owes m due (.call (.stmt .pool st) k)
  | increment (volumeUSD now : Int) (k : Except Err ℕ → SubscriptionCall Unit)
      (isDue : due = some volumeUSD) (missed : Owes m due (k (.ok 0)))
      (done : ∀ r, r ≠ .ok 0 → isOver (k r) = true) :
      Owes m due (.call (.stmt .pool (.incrementPaymentUsage m volumeUSD now)) k)

/-- A program that is bound to count in month `k`, if its statements are regular;
`there` if the month has a row. -/
inductive Bound (m k : Int) : Bool → SubscriptionCall Unit → Prop
  | timeNow (there : Bool) (f : Int → SubscriptionCall Unit)
      (rest : ∀ t, WithinMonth k t → Bound m k there (f t)) :
      Bound m k there (.call (.stmt .pool .timeNow) f)
  | create (there : Bool) (createdAt updatedAt : Int)
      (f : Except Err UsageTracking → SubscriptionCall Unit)
      (rest : ∀ u, Bound m k true (f (.ok u))) :
      Bound m k there (.call (.stmt .pool (.createUsagePeriod m (Calendar.startOf k)
        (Calendar.startOf (k + 1) - Calendar.second) createdAt updatedAt)) f)
  | increment (there : Bool) (volumeUSD now : Int) (f : Except Err ℕ → SubscriptionCall Unit)
      (within : WithinMonth k now) (missed : there = false → Bound m k false (f (.ok 0))) :
      Bound m k there (.call (.stmt .pool (.incrementPaymentUsage m volumeUSD now)) f)

theorem isOver_succeed {β : Type} (x : Except Err β) (f : β → SubscriptionCall Unit)
    (hf : ∀ a, isOver (f a) = true) : isOver ((succeed x).bind f) = true := by
  cases x with
  | error e => rfl
  | ok a => exact hf a

theorem owes_succeed {β : Type} (x : Except Err β) {f : β → SubscriptionCall Unit}
    (hf : ∀ a, x = .ok a → Owes m due (f a)) : Owes m due ((succeed x).bind f) := by
  cases x with
  | error e => exact .fail e
  | ok a => exact hf a rfl

/-- A program of quiet statements owes nothing else. -/
theorem owes_of_issues {p : SubscriptionCall Unit}
    (h : Issues (fun c => ∃ st, c = .stmt .pool st ∧ Quiet st) p) : Owes m due p := by
  induction p with
  | ret a => exact .ret
  | fail e => exact .fail e
  | call c k ih =>
    obtain ⟨⟨st, rfl, hquiet⟩, hrest⟩ := h
    exact .quiet st k hquiet fun r => ih r (hrest r)

theorem quiet_createUsagePeriod (m now : Int) : Quiet (.createUsagePeriod m
    (Calendar.monthStart now) (Calendar.addDate (Calendar.monthStart now) 0 1 - Calendar.second)
    now now) := by
  refine ⟨Calendar.monthOf now, Calendar.monthStart_eq now, ?_⟩
  rw [Calendar.monthStart_eq, Calendar.addDate_startOf]

theorem owes_incrementPaymentUsage (m volumeUSD : Int) :
    Owes m (some volumeUSD) (incrementPaymentUsage m volumeUSD) := by
  refine .quiet .timeNow _ trivial fun now => ?_
  refine .increment volumeUSD now _ rfl ?_ ?_
  · -- nothing was reached: the period is created, and the update made again
    refine .quiet .timeNow _ trivial fun start => ?_
    refine .quiet _ _ (quiet_createUsagePeriod m start) fun usage => ?_
    rw [Prog.bind_assoc]
    refine owes_succeed _ fun u _ => ?_
    refine .quiet .timeNow _ trivial fun later => ?_
    refine .increment volumeUSD later _ rfl ?_ ?_
    · exact .ret
    · exact fun again _ => isOver_succeed again _ fun _ => rfl
  · intro affected hsome
    cases affected with
    | error e => rfl
    | ok n =>
      cases n with
      | zero => exact absurd rfl hsome
      | succ n => rfl

theorem bound_incrementPaymentUsage (m k volumeUSD : Int) :
    Bound m k false (incrementPaymentUsage m volumeUSD) := by
  refine .timeNow _ _ fun now hnow => ?_
  refine .increment _ volumeUSD now _ hnow fun _ => ?_
  refine .timeNow _ _ fun start hstart => ?_
  have hperiod : Calendar.monthStart start = Calendar.startOf k := by
    rw [Calendar.monthStart_eq, hstart.1]
  have hend : Calendar.addDate (Calendar.monthStart start) 0 1 = Calendar.startOf (k + 1) := by
    rw [hperiod, Calendar.addDate_startOf]
  show Bound m k false (.call (.stmt .pool (.createUsagePeriod m (Calendar.monthStart start)
    (Calendar.addDate (Calendar.monthStart start) 0 1 - Calendar.second) start start)) _)
  rw [hend, hperiod]
  refine .create _ start start _ fun u => ?_
  refine .timeNow _ _ fun later hlater => ?_
  exact .increment _ volumeUSD later _ hlater fun h => by cases h

abbrev QuietCall (c : Cmd SubscriptionStmt) : Prop := ∃ st, c = .stmt .pool st ∧ Quiet st

theorem issues_getActiveSubscription (m : Int) :
    Issues QuietCall (getActiveSubscription m) := by
  refine ⟨⟨_, rfl, trivial⟩, fun found => ?_⟩
  apply Issues.bind (Issues.ofExcept _)
  intro sub
  apply Issues.bind
  · apply Issues.attempt
    exact ⟨⟨_, rfl, trivial⟩, fun plan => Issues.ofExcept _⟩
  · exact fun _ => .ret _

theorem issues_getCurrentUsage (m : Int) : Issues QuietCall (getCurrentUsage m) := by
  refine ⟨⟨_, rfl, trivial⟩, fun now => ⟨⟨_, rfl, trivial⟩, fun usage => ?_⟩⟩
  cases usage with
  | ok u => exact .ret u
  | error e =>
    show Issues QuietCall (if e.is .noRows then createUsagePeriod m
      else .fail (e.wrap "failed to get current usage"))
    split
    · refine ⟨⟨_, rfl, trivial⟩, fun start => ?_⟩
      exact ⟨⟨_, rfl, quiet_createUsagePeriod m start⟩, fun created => Issues.ofExcept _⟩
    · exact .fail _

theorem issues_checkPaymentLimit (m : Int) : Issues QuietCall (checkPaymentLimit m) := by
  apply Issues.bind (issues_getActiveSubscription m)
  rintro ⟨sub, plan⟩
  cases plan with
  | none => exact .fail _
  | some plan =>
    cases hlimit : plan.maxPaymentsMonthly with
    | none =>
      simp only [hlimit]
      exact .ret _
    | some limit =>
      simp only [hlimit]
      split
      · exact .ret _
      · apply Issues.bind (issues_getCurrentUsage m)
        intro usage
        split
        · exact .fail _
        · exact .ret _

theorem issues_checkVolumeLimit (m volume : Int) :
    Issues QuietCall (checkVolumeLimit m volume) := by
  apply Issues.bind (issues_getActiveSubscription m)
  rintro ⟨sub, plan⟩
  cases plan with
  | none => exact .fail _
  | some plan =>
    cases hlimit : plan.maxVolumeMonthlyUSD with
    | none =>
      simp only [hlimit]
      exact .ret _
    | some limit =>
      simp only [hlimit]
      apply Issues.bind (issues_getCurrentUsage m)
      intro usage
      split
      · exact .fail _
      · exact .ret _

theorem issues_enforceLimits (m : Int) (price : ℚ) : Issues QuietCall (enforceLimits m price) := by
  have henforced : ∀ {check : SubscriptionCall Unit}, Issues QuietCall check →
      Issues QuietCall (enforceLimits.enforced check) := by
    intro check hcheck
    apply Issues.bind hcheck.attempt
    intro outcome
    cases outcome with
    | ok a => exact .ret _
    | error e =>
      simp only
      split
      · exact .fail _
      · exact .ret _
  apply Issues.bind (henforced (issues_checkPaymentLimit m))
  exact fun _ => henforced (issues_checkVolumeLimit m (roundCents price))

theorem owes_program (l : UsageCall) : Owes l.merchantID l.due l.program := by
  cases l with
  | incrementPaymentUsage m volumeUSD => exact owes_incrementPaymentUsage m volumeUSD
  | enforceLimits m price => exact owes_of_issues (issues_enforceLimits m price)

theorem bound_program (l : UsageCall) (k : Int) (hdue : l.due.isSome = true) :
    Bound l.merchantID k false l.program := by
  cases l with
  | incrementPaymentUsage m volumeUSD => exact bound_incrementPaymentUsage m k volumeUSD
  | enforceLimits m price => cases hdue

end Programs

section Runs

variable {months : ℕ → Int} {lucky : ℕ → Prop} {w : SubscriptionWorld} {cfg : UsageConfig}
  {counted : ℕ → Option Int}

/-- The counters are those of the counted calls. What is not counted yet owes its
count, if it is lucky for its month, and what is counted is over. -/
structure Booked (months : ℕ → Int) (lucky : ℕ → Prop) (w : SubscriptionWorld) (cfg : UsageConfig)
    (counted : ℕ → Option Int) : Prop where
  monthly : Monthly cfg.world
  counts : ∀ m k, paymentCount (monthKey m k) cfg.world =
    paymentCount (monthKey m k) w + tally (booked counted (fun _ => 1) m k) cfg.threads
  volumes : ∀ m k, volume (monthKey m k) cfg.world =
    volume (monthKey m k) w + tally (booked counted id m k) cfg.threads
  owing : ∀ i th, cfg.threads[i]? = some th → counted i = none →
    Owes th.label.merchantID th.label.due th.prog
  bound : ∀ i th, cfg.threads[i]? = some th → counted i = none → lucky i →
    th.label.due.isSome = true → ∃ there, Bound th.label.merchantID (months i) there th.prog ∧
      (there = true → HasMonth th.label.merchantID (months i) cfg.world)
  settled : ∀ i th, cfg.threads[i]? = some th → counted i ≠ none → isOver th.prog = true
  inMonth : ∀ i k, lucky i → counted i = some k → k = months i
  later : ∀ i, cfg.threads.length ≤ i → counted i = none

theorem booked_start (months : ℕ → Int) (lucky : ℕ → Prop) (hw : Monthly w) :
    Booked months lucky w ⟨w, []⟩ fun _ => none where
  monthly := hw
  counts _ _ := (Int.add_zero _).symm
  volumes _ _ := (Int.add_zero _).symm
  owing i th hi _ := by simp at hi
  bound i th hi _ := by simp at hi
  settled i th hi _ := by simp at hi
  inMonth _ _ _ h := by cases h
  later _ _ := rfl

theorem tally_booked_set (f : Int → Int) (m k : Int) {threads : List UsageThread} {i : ℕ}
    {th : UsageThread} (here : threads[i]? = some th) (prog : SubscriptionCall Unit)
    (session : Session SubscriptionStmt SubscriptionEnv SubscriptionWorld Empty) :
    tally (booked counted f m k) (threads.set i ⟨th.label, prog, session⟩) =
      tally (booked counted f m k) threads := by
  rw [tally_set here fun _ _ _ => rfl, booked, booked, Int.sub_self, Int.add_zero]

/-- A thread goes on, and nothing is counted. -/
theorem Booked.set (h : Booked months lucky w cfg counted) {w' : SubscriptionWorld}
    (hgrown : Grown cfg.world w') (hnothing : Uncounted cfg.world w') {i : ℕ} {th : UsageThread}
    (here : cfg.threads[i]? = some th) {prog : SubscriptionCall Unit}
    {session : Session SubscriptionStmt SubscriptionEnv SubscriptionWorld Empty}
    (howes : counted i = none → Owes th.label.merchantID th.label.due prog)
    (hbound : counted i = none → lucky i → th.label.due.isSome = true →
      ∃ there, Bound th.label.merchantID (months i) there prog ∧
        (there = true → HasMonth th.label.merchantID (months i) w'))
    (hover : counted i ≠ none → isOver prog = true) :
    Booked months lucky w ⟨w', cfg.threads.set i ⟨th.label, prog, session⟩⟩ counted where
  monthly := hgrown.monthly h.monthly
  counts m k := by rw [hnothing.counts, tally_booked_set _ m k here, h.counts]
  volumes m k := by rw [hnothing.volumes, tally_booked_set _ m k here, h.volumes]
  owing j other hj hnone := by
    rw [List.getElem?_set] at hj
    split at hj
    · rename_i hij
      subst hij
      split at hj
      · cases hj
        exact howes hnone
      · cases hj
    · exact h.owing j other hj hnone
  bound j other hj hnone hlucky hdue := by
    rw [List.getElem?_set] at hj
    split at hj
    · rename_i hij
      subst hij
      split at hj
      · cases hj
        exact hbound hnone hlucky hdue
      · cases hj
    · obtain ⟨there, hprog, hrow⟩ := h.bound j other hj hnone hlucky hdue
      exact ⟨there, hprog, fun hthere => hgrown.months _ _ (hrow hthere)⟩
  settled j other hj hsome := by
    rw [List.getElem?_set] at hj
    split at hj
    · rename_i hij
      subst hij
      split at hj
      · cases hj
        exact hover hsome
      · cases hj
    · exact h.settled j other hj hsome
  inMonth := h.inMonth
  later j hj := by
    rw [List.length_set] at hj
    exact h.later j hj

theorem Booked.start (h : Booked months lucky w cfg counted) (l : UsageCall) :
    Booked months lucky w ⟨cfg.world, cfg.threads ++ [⟨l, l.program, .idle⟩]⟩ counted := by
  have hfresh : ∀ f m k, booked counted f m k cfg.threads.length ⟨l, l.program, .idle⟩ = 0 := by
    intro f m k
    rw [booked, h.later _ le_rfl, if_neg]
    rintro ⟨-, hsome⟩
    cases hsome
  have hcases : ∀ (i : ℕ) (th : UsageThread),
      (cfg.threads ++ [⟨l, l.program, .idle⟩])[i]? = some th →
        cfg.threads[i]? = some th ∨ th = ⟨l, l.program, .idle⟩ ∧ counted i = none := by
    intro i th hi
    rw [List.getElem?_append] at hi
    split at hi
    · exact .inl hi
    · rename_i hlate
      rw [List.getElem?_singleton] at hi
      split at hi
      · cases hi
        exact .inr ⟨rfl, h.later i (by omega)⟩
      · cases hi
  constructor
  · exact h.monthly
  · intro m k
    rw [tally_append, hfresh, Int.add_zero]
    exact h.counts m k
  · intro m k
    rw [tally_append, hfresh, Int.add_zero]
    exact h.volumes m k
  · intro i th hi hnone
    rcases hcases i th hi with hold | ⟨rfl, -⟩
    · exact h.owing i th hold hnone
    · exact owes_program l
  · intro i th hi hnone hlucky hdue
    rcases hcases i th hi with hold | ⟨rfl, -⟩
    · exact h.bound i th hold hnone hlucky hdue
    · exact ⟨false, bound_program l (months i) hdue, fun hthere => by cases hthere⟩
  · intro i th hi hsome
    rcases hcases i th hi with hold | ⟨-, hnone⟩
    · exact h.settled i th hold hsome
    · exact absurd hnone hsome
  · exact h.inMonth
  · intro i hi
    rw [List.length_append] at hi
    exact h.later i (by omega)

/-- A thread is counted, and is over. -/
theorem Booked.count (h : Booked months lucky w cfg counted) {w' : SubscriptionWorld}
    (hgrown : Grown cfg.world w') {i : ℕ} {th : UsageThread} (here : cfg.threads[i]? = some th)
    (hnone : counted i = none) {k volumeUSD : Int}
    (hcounted : Counted th.label.merchantID k volumeUSD cfg.world w')
    (hdue : th.label.due = some volumeUSD) (hmonth : lucky i → k = months i)
    {prog : SubscriptionCall Unit}
    {session : Session SubscriptionStmt SubscriptionEnv SubscriptionWorld Empty}
    (hover : isOver prog = true) :
    Booked months lucky w ⟨w', cfg.threads.set i ⟨th.label, prog, session⟩⟩
      (Function.update counted i (some k)) := by
  have htally : ∀ f m' k', tally (booked (Function.update counted i (some k)) f m' k')
      (cfg.threads.set i ⟨th.label, prog, session⟩) = tally (booked counted f m' k') cfg.threads +
        if th.label.merchantID = m' ∧ k = k' then f volumeUSD else 0 := by
    intro f m' k'
    have hothers : ∀ j, j ≠ i → ∀ z, booked (Function.update counted i (some k)) f m' k' j z =
        booked counted f m' k' j z := by
      intro j hj z
      rw [booked, booked, Function.update_of_ne hj]
    rw [tally_set here hothers, booked, booked, hnone, Function.update_self, hdue]
    simp
  have hlt : i < cfg.threads.length := (List.getElem?_eq_some_iff.mp here).1
  constructor
  · exact hgrown.monthly h.monthly
  · intro m' k'
    rw [hcounted.counts, htally, h.counts, Int.add_assoc]
  · intro m' k'
    rw [hcounted.volumes, htally, h.volumes, Int.add_assoc]
    rfl
  · intro j other hj hnone'
    by_cases hij : j = i
    · subst hij
      rw [Function.update_self] at hnone'
      cases hnone'
    · rw [Function.update_of_ne hij] at hnone'
      rw [List.getElem?_set_ne (Ne.symm hij)] at hj
      exact h.owing j other hj hnone'
  · intro j other hj hnone' hlucky hdue'
    by_cases hij : j = i
    · subst hij
      rw [Function.update_self] at hnone'
      cases hnone'
    · rw [Function.update_of_ne hij] at hnone'
      rw [List.getElem?_set_ne (Ne.symm hij)] at hj
      obtain ⟨there, hprog, hrow⟩ := h.bound j other hj hnone' hlucky hdue'
      exact ⟨there, hprog, fun hthere => hgrown.months _ _ (hrow hthere)⟩
  · intro j other hj hsome
    by_cases hij : j = i
    · subst hij
      rw [List.getElem?_set_self hlt] at hj
      cases hj
      exact hover
    · rw [Function.update_of_ne hij] at hsome
      rw [List.getElem?_set_ne (Ne.symm hij)] at hj
      exact h.settled j other hj hsome
  · intro j k' hlucky hj
    by_cases hij : j = i
    · subst hij
      rw [Function.update_self] at hj
      rw [← Option.some.inj hj]
      exact hmonth hlucky
    · rw [Function.update_of_ne hij] at hj
      exact h.inMonth j k' hlucky hj
  · intro j hj
    rw [List.length_set] at hj
    rw [Function.update_of_ne (by omega)]
    exact h.later j hj

theorem owes_of_isOver {m : Int} {due : Option Int} {p : SubscriptionCall Unit}
    (h : isOver p = true) : Owes m due p := by
  cases p with
  | ret a => exact .ret
  | fail e => exact .fail e
  | call c k => cases h

/-- A quiet statement that is regular leaves a bound program bound. -/
theorem Bound.quiet {m k : Int} {there : Bool} {st : SubscriptionStmt}
    {f : SubscriptionReply st → SubscriptionCall Unit}
    (h : Bound m k there (.call (.stmt .pool st) f)) (hquiet : Quiet st) {env : SubscriptionEnv}
    {w : SubscriptionWorld} (hregular : regular k env w (.stmt .pool st))
    (hrow : there = true → HasMonth m k w) :
    ∃ there', Bound m k there' (f (subscriptionEngine.reply st env w)) ∧
      (there' = true → HasMonth m k (subscriptionEngine.autocommit st env w)) := by
  have hgrown := (hquiet.effect env w).1
  cases h with
  | timeNow there f rest =>
    exact ⟨there, rest _ hregular, fun hthere => hgrown.months m k (hrow hthere)⟩
  | create there createdAt updatedAt f rest =>
    obtain ⟨hdone, hfits⟩ := hregular
    have hreply : subscriptionEngine.reply (.createUsagePeriod m (Calendar.startOf k)
        (Calendar.startOf (k + 1) - Calendar.second) createdAt updatedAt) env w =
          .ok (SubscriptionWorld.newUsage (monthKey m k)
            (Calendar.startOf (k + 1) - Calendar.second) createdAt updatedAt) := by
      simp [subscriptionEngine, SubscriptionWorld.answer, answered, hdone, hfits,
        monthKey]
    have hlanded : env.fate ≠ .refused := by
      rw [hdone]
      exact fun hrefused => by cases hrefused
    refine ⟨true, ?_, fun _ => ?_⟩
    · rw [hreply]
      exact rest _
    · refine ⟨SubscriptionWorld.newUsage (monthKey m k)
        (Calendar.startOf (k + 1) - Calendar.second) createdAt updatedAt, ?_, rfl⟩
      have hnone : w.usage.get (monthKey m k) = none := by
        rw [SubscriptionWorld.usageFits, Bool.and_eq_true] at hfits
        exact Option.isNone_iff_eq_none.mp hfits.2
      have hself : (w.usage.insert (SubscriptionWorld.newUsage (monthKey m k)
          (Calendar.startOf (k + 1) - Calendar.second) createdAt updatedAt)).get (monthKey m k) =
            some (SubscriptionWorld.newUsage (monthKey m k)
              (Calendar.startOf (k + 1) - Calendar.second) createdAt updatedAt) :=
        Table.get_insert_self w.usage hnone
      rw [autocommit_landed hlanded, SubscriptionWorld.effect, if_pos hfits]
      exact (Table.get_eq_some hself).1
  | increment => exact hquiet.elim

theorem Booked.quiet (h : Booked months lucky w cfg counted) {i : ℕ} {l : UsageCall}
    {st : SubscriptionStmt} {f : SubscriptionReply st → SubscriptionCall Unit}
    (here : cfg.threads[i]? = some ⟨l, .call (.stmt .pool st) f, .idle⟩) (hnone : counted i = none)
    (hquiet : Quiet st) (hrest : ∀ r, Owes l.merchantID l.due (f r)) {env : SubscriptionEnv}
    (hregular : lucky i → regular (months i) env cfg.world (.stmt .pool st)) :
    Booked months lucky w ⟨subscriptionEngine.autocommit st env cfg.world,
      cfg.threads.set i ⟨l, f (subscriptionEngine.reply st env cfg.world), .idle⟩⟩ counted := by
  obtain ⟨hgrown, hnothing⟩ := hquiet.effect env cfg.world
  refine h.set hgrown hnothing here (fun _ => hrest _) ?_ fun hsome => absurd hnone hsome
  intro _ hlucky hdue
  obtain ⟨there, hprog, hrow⟩ := h.bound i _ here hnone hlucky hdue
  exact hprog.quiet hquiet (hregular hlucky) hrow

theorem Booked.increment (h : Booked months lucky w cfg counted) {i : ℕ} {l : UsageCall}
    {volumeUSD now : Int} {f : Except Err ℕ → SubscriptionCall Unit}
    (here : cfg.threads[i]? =
      some ⟨l, .call (.stmt .pool (.incrementPaymentUsage l.merchantID volumeUSD now)) f, .idle⟩)
    (hnone : counted i = none) (hdue : l.due = some volumeUSD)
    (hmissed : Owes l.merchantID l.due (f (.ok 0)))
    (hdone : ∀ r, r ≠ .ok 0 → isOver (f r) = true) {env : SubscriptionEnv}
    (hregular : lucky i → regular (months i) env cfg.world
      (.stmt .pool (.incrementPaymentUsage l.merchantID volumeUSD now))) :
    ∃ counted', Booked months lucky w
      ⟨subscriptionEngine.autocommit (.incrementPaymentUsage l.merchantID volumeUSD now) env
          cfg.world,
        cfg.threads.set i ⟨l, f (subscriptionEngine.reply
          (.incrementPaymentUsage l.merchantID volumeUSD now) env cfg.world), .idle⟩⟩ counted' := by
  have hgrown : Grown cfg.world (subscriptionEngine.autocommit
      (.incrementPaymentUsage l.merchantID volumeUSD now) env cfg.world) :=
    grown_increment env cfg.world
  have hdues : l.due.isSome = true := by rw [hdue]; rfl
  rcases increment_cases h.monthly l.merchantID volumeUSD now env with
    ⟨hnothing, hempty⟩ | ⟨hcounted, hwithin, hreply⟩
  · refine ⟨counted, h.set hgrown hnothing here ?_ ?_ fun hsome => absurd hnone hsome⟩
    · intro _
      by_cases hzero : subscriptionEngine.reply
          (.incrementPaymentUsage l.merchantID volumeUSD now) env cfg.world = .ok 0
      · rw [hzero]
        exact hmissed
      · exact owes_of_isOver (hdone _ hzero)
    · intro _ hlucky _
      obtain ⟨hfits, hanswered⟩ := hregular hlucky
      have hlanded : env.fate ≠ .refused := by
        rcases hanswered with hfate | ⟨hfate, -⟩ <;> rw [hfate] <;> exact fun h => by cases h
      have hrows := hempty hfits hlanded
      have hfate : env.fate = .done := by
        rcases hanswered with hfate | ⟨-, hsome⟩
        · exact hfate
        · exact absurd hrows hsome
      have hzero : subscriptionEngine.reply (.incrementPaymentUsage l.merchantID volumeUSD now)
          env cfg.world = .ok 0 := by
        simp [subscriptionEngine, SubscriptionWorld.answer, answered, hfate,
          hfits, hrows]
      obtain ⟨there, hprog, hrow⟩ := h.bound i _ here hnone hlucky hdues
      cases hprog with
      | increment there v n f hnow missed =>
        cases there with
        | true => exact absurd hrows ((hrow rfl).current h.monthly hnow)
        | false =>
          refine ⟨false, ?_, fun hthere => by cases hthere⟩
          rw [hzero]
          exact missed rfl
  · refine ⟨_, h.count hgrown here hnone hcounted hdue ?_ (hdone _ hreply)⟩
    intro hlucky
    obtain ⟨there, hprog, -⟩ := h.bound i _ here hnone hlucky hdues
    cases hprog with
    | increment there v n f hnow missed => exact hnow.1

theorem Booked.step (h : Booked months lucky w cfg counted) {e : UsageEvent} {cfg' : UsageConfig}
    (hok : Lucky months lucky cfg e) (hs : PlainStep usageCalls cfg e cfg') :
    ∃ counted', Booked months lucky w cfg' counted' := by
  cases hs with
  | nothing => exact ⟨counted, h⟩
  | start l => exact ⟨counted, h.start l⟩
  | move elapsed =>
    refine ⟨counted, ⟨h.monthly.congr rfl, h.counts, h.volumes, h.owing, ?_, h.settled, h.inMonth,
      h.later⟩⟩
    intro i th hi hnone hlucky hdue
    obtain ⟨there, hprog, hrow⟩ := h.bound i th hi hnone hlucky hdue
    exact ⟨there, hprog, fun hthere => (hrow hthere).congr rfl⟩
  | crash i th here =>
    refine ⟨counted, h.set (.of_same rfl) (.of_same rfl) here (fun _ => .ret) ?_ fun _ => rfl⟩
    exact fun _ hlucky _ => absurd hlucky hok.1
  | stmt i env l st f here executing =>
    have hnone : counted i = none := by
      cases hcounted : counted i with
      | none => rfl
      | some k => cases h.settled i _ here (by rw [hcounted]; exact fun h => by cases h)
    have hregular : lucky i → regular (months i) env cfg.world (.stmt .pool st) :=
      hok.2 _ executing
    have howes : Owes l.merchantID l.due (.call (.stmt .pool st) f) := h.owing i _ here hnone
    generalize hmerchant : l.merchantID = m, hdue : l.due = due at howes
    cases howes with
    | quiet st f hquiet hrest =>
      subst hmerchant hdue
      exact ⟨counted, h.quiet here hnone hquiet hrest hregular⟩
    | increment volumeUSD now f isDue missed done =>
      subst hmerchant hdue
      exact h.increment here hnone isDue missed done hregular

theorem Owes.singles {m : Int} {due : Option Int} {p : SubscriptionCall Unit} (h : Owes m due p) :
    Issues Cmd.isSingle p := by
  induction h with
  | ret => exact .ret ()
  | fail e => exact .fail e
  | quiet st k hquiet hrest ih => exact ⟨⟨st, rfl⟩, ih⟩
  | increment volumeUSD now k hdue hmissed hdone ih =>
    refine ⟨⟨_, rfl⟩, fun r => ?_⟩
    by_cases hzero : r = .ok 0
    · rw [hzero]
      exact ih
    · have hover := hdone r hzero
      generalize k r = p at hover
      cases p with
      | ret a => exact .ret a
      | fail e => exact .fail e
      | call c f => cases hover

theorem usageCalls_singlesOnly : SinglesOnly usageCalls := fun l => (owes_program l).singles

/-- Whatever runs side by side and whatever fails: no payment is counted twice, every
counter is the sum of what is counted in its row, and the lucky payments that are
over are counted in their months. -/
theorem payments_counted_once (months : ℕ → Int) (lucky : ℕ → Prop) {w : SubscriptionWorld}
    (hw : Monthly w) {es : List UsageEvent}
    (hrun : usageCalls.Along (Lucky months lucky) ⟨w, []⟩ es) :
    ∃ counted, Ledger w (usageCalls.run ⟨w, []⟩ es) counted ∧
      ∀ i th, (usageCalls.run ⟨w, []⟩ es).threads[i]? = some th → isOver th.prog = true →
        th.label.due.isSome = true → lucky i → counted i = some (months i) := by
  obtain ⟨counted, h⟩ := plain_invariant usageCalls_singlesOnly
    (I := fun cfg => ∃ counted, Booked months lucky w cfg counted)
    (fun _ _ _ hI hok hs => hI.elim fun _ h => h.step hok hs) hrun
    ⟨_, booked_start months lucky hw⟩
  refine ⟨counted, ⟨h.counts, h.volumes, ?_⟩, ?_⟩
  · exact fun u hu u' hu' m t hcurrent hcurrent' => h.monthly.apart hu hu' hcurrent hcurrent'
  · intro i th hi hover hdue hlucky
    cases hcounted : counted i with
    | none =>
      obtain ⟨there, hprog, -⟩ := h.bound i th hi hcounted hlucky hdue
      generalize th.prog = p at hover hprog
      cases hprog <;> cases hover
    | some k => rw [h.inMonth i k hlucky hcounted]

end Runs

namespace Race

/-- A merchant without any usage. -/
def unused : SubscriptionWorld := { limited 7 10000 with usage := ⟨[], List.nodup_nil⟩ }

/-- Two payments and a check find no row, and the first payment creates it. The
second fails on that row; a third one finds it. -/
def events : List UsageEvent :=
  [.start (.incrementPaymentUsage 7 5000), .start (.incrementPaymentUsage 7 700),
    .start (.enforceLimits 7 20), .exec 0 {}, .exec 1 {}, .exec 0 {}, .exec 1 {},
    .exec 2 {}, .exec 2 {}, .exec 0 {}, .exec 1 {}, .exec 0 {}, .exec 1 {},
    .start (.incrementPaymentUsage 7 300), .move 60, .exec 3 {}, .exec 3 {}, .exec 2 {},
    .exec 2 {}, .exec 2 {}, .exec 0 {}, .exec 0 {}]

def january (_ : ℕ) : Int := 12 * 1970

theorem payments_counted_once_race :
    ∃ counted, Ledger unused (usageCalls.run ⟨unused, []⟩ events) counted ∧
      ∀ i th, (usageCalls.run ⟨unused, []⟩ events).threads[i]? = some th → isOver th.prog = true →
        th.label.due.isSome = true → i = 0 ∨ i = 3 → counted i = some (january i) :=
  payments_counted_once january (fun i => i = 0 ∨ i = 3) (fun u hu => by cases hu)
    (by decide +kernel)

end Race

end Subscription

end CryptoLink
