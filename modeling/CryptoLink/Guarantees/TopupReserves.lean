import CryptoLink.Library.Reliance
import CryptoLink.Guarantees.TopupAccounts

/-!
# What a topup was shown

The reserve a topup takes from is added up from two listings, and nothing holds
it until the credit. As long as nobody has taken from it since, the call's own
check covers the credit; for the rest it takes what is still there.
-/

namespace CryptoLink

open KeyedTables ReadCommitted StatementPrograms System

/-- What the rows of a place come to. -/
def reserveOf (rows : List BalanceRow) (place : String × String × String) : Int :=
  (rows.map (BalanceRow.share place)).sum

/-- What a topup knows: the balances it was shown when it first asked for them,
and the row it was given for its transaction. -/
structure TopupNote where
  merchants : Option (List BalanceRow) := none
  wallets : Option (List BalanceRow) := none
  made : Option TransactionRow := none

namespace TopupNote

def after (c : Cmd Stmt) (r : Answer Reply c) (g : TopupNote) : TopupNote :=
  match c, r with
  | .stmt _ (.listAllBalancesByType .merchant _), .ok rows =>
      { g with merchants := g.merchants.or (some rows) }
  | .stmt _ (.listAllBalancesByType .wallet _), .ok rows =>
      { g with wallets := g.wallets.or (some rows) }
  | .stmt .pool (.createTransaction _), .ok row => { g with made := some row }
  | _, _ => g

def shown (g : TopupNote) : List BalanceRow := g.merchants.getD [] ++ g.wallets.getD []

/-- The place of the key is all that the call takes for the reserve of its
currency, and nothing has been taken from it since. -/
def Lasts (l : TopupCall) (g : TopupNote) (k : BalanceKey) (w : World) : Prop :=
  (∀ r ∈ g.shown, (r.key.currency = l.input.currency.ticker ∧
    r.key.networkID = l.input.currency.chooseNetwork l.input.isTest) ∨ r.key.path = k.path →
      r.key.place = k.place) ∧
  reserveOf g.shown k.place ≤ w.reserve k.place

instance (l : TopupCall) (g : TopupNote) (k : BalanceKey) (w : World) :
    Decidable (Lasts l g k w) :=
  inferInstanceAs (Decidable (_ ∧ _))

/-- What is taken is taken from a reserve that is as the call was shown it, or
there is still enough. -/
def Takes (l : TopupCall) (g : TopupNote) (e : Entry Stmt Env World) (w : World) : Prop :=
  ∀ m ∈ movement e, Lasts l g m.1 w ∨ -(m.1.sign * m.2) ≤ w.reserve m.1.place

instance (l : TopupCall) (g : TopupNote) (e : Entry Stmt Env World) (w : World) :
    Decidable (Takes l g e w) :=
  inferInstanceAs (Decidable (∀ m ∈ movement e, _ ∨ _))

end TopupNote

/-- What topups are told. -/
def topupNotes : Reliance Stmt Reply Env World LockKey TopupCall TopupNote where
  start _ _ := {}
  after _ c r _ g := g.after c r
  mind _ g := g
  counts _ _ := True
  admits l g c env v :=
    engine.EachLands (TopupNote.Takes l g) (engine.landing c env v) (engine.ground c env v)
  counts_mind _ _ := trivial

instance (l : TopupCall) (g : TopupNote) (c : Cmd Stmt) (env : Env)
    (v : View Stmt Env World LockKey) : Decidable (topupNotes.admits l g c env v) :=
  inferInstanceAs (Decidable
    (engine.EachLands (TopupNote.Takes l g) (engine.landing c env v) (engine.ground c env v)))

/-- The row is there, and what the ledger is told of it is as it was given. -/
def StillGiven (row : TransactionRow) (w : World) : Prop :=
  ∃ r, w.transactions.get row.id = some r ∧ r.type = row.type ∧ r.entityID = row.entityID ∧
    r.merchantID = row.merchantID ∧ r.currency = row.currency ∧ r.isTest = row.isTest

/-- What every run provides besides: no balance is stored under the key of one
that was never read, and the rows of the calls stay what they are. -/
def topupTold : Reliance Stmt Reply Env World LockKey TopupCall TopupNote :=
  topupNotes.admitting fun l g c env v => topupNotes.admits l g c env v ∧
    v.world.balances.get noBalance = none ∧ ∀ row ∈ g.made, StillGiven row v.world

/-- Whatever lands takes no more than there is. -/
def TakesWhatIsThere (_ : TopupCall) (_ : TopupNote) (c : Cmd Stmt) (env : Env)
    (v : View Stmt Env World LockKey) : Prop :=
  engine.EachLands TakesCovered (engine.landing c env v) (engine.ground c env v)

abbrev Topping {α : Type} (l : TopupCall) (Q : Except Err α → topupTold.Stand → Prop)
    (p : Call α) (x : topupTold.Stand) : Prop :=
  Meets (topupTold.setting engine TakesWhatIsThere l) Q p x

/-- The call was shown both lists. -/
structure TopupNote.Full (g : TopupNote) : Prop where
  merchants : g.merchants.isSome = true
  wallets : g.wallets.isSome = true

theorem TopupNote.Full.after {g : TopupNote} (h : g.Full) {c : Cmd Stmt} (r : Answer Reply c)
    (hc : ∀ p, c ≠ .stmt .pool (.createTransaction p)) : g.after c r = g := by
  obtain ⟨merchants, wallets, made⟩ := g
  obtain ⟨ms, rfl⟩ := Option.isSome_iff_exists.mp h.merchants
  obtain ⟨ws, rfl⟩ := Option.isSome_iff_exists.mp h.wallets
  unfold TopupNote.after
  split
  · rfl
  · rfl
  · exact absurd rfl (hc _)
  · rfl

theorem topupTold_left {g g' : TopupNote} (h : topupTold.Left g g') : g' = g := by
  induction h with
  | refl => rfl
  | tail _ hstep ih =>
    obtain ⟨w, rfl⟩ := hstep
    exact ih

section Rules

variable {α β : Type} {l : TopupCall}

theorem takes_of_other {st : Stmt} (hst : st.changes ≠ some .balances) {q : Conn} {g : TopupNote}
    {env : Env} {v : View Stmt Env World LockKey} (hq : q = .pool) :
    TakesWhatIsThere l g (.stmt q st) env v := by
  subst hq
  refine ⟨?_, trivial⟩
  intro m hm
  cases st <;> first
    | exact absurd rfl hst
    | cases hm

/-- A part that writes neither a balance nor a transaction's row. -/
theorem topping_of_onPool {Φ : Stmt → Prop} {p : Call α} (hp : OnPool Φ p)
    (hbalances : ∀ st, Φ st → st.changes ≠ some .balances)
    (hcreates : ∀ params, ¬ Φ (.createTransaction params)) {x : topupTold.Stand}
    (hx : x.1.1.Full) : Topping l (fun _ y => y.1.1 = x.1.1) p x := by
  refine Meets.mono (fun _ _ h => h) (Reliance.meets_of_issues (J := fun g _ => g = x.1.1)
    (fun _ _ _ h => h) ?_ ?_ hp rfl)
  · rintro c ⟨st, rfl, hst⟩ env v g rfl
    apply hx.after
    rintro params heq
    cases heq
    exact hcreates params (hst fun h => by cases h)
  · rintro c ⟨st, rfl, hst⟩ g env v - - -
    apply takes_of_other _ rfl
    by_cases hread : st.changes = none
    · rw [hread]
      decide
    · exact hbalances st (hst hread)

theorem topping_of_reads {p : Call α} (hp : OnPool (fun _ => False) p) {x : topupTold.Stand}
    (hx : x.1.1.Full) : Topping l (fun _ y => y.1.1 = x.1.1) p x :=
  topping_of_onPool hp (fun _ => False.elim) (fun _ => id) hx

/-- One statement and what follows it. -/
theorem topping_ask {st : Stmt} {f : Reply st → Call β} {x : topupTold.Stand}
    {Q : Except Err β → topupTold.Stand → Prop}
    (htakes : ∀ env v, topupTold.admits l x.1.1 (.stmt .pool st) env v →
      TakesWhatIsThere l x.1.1 (.stmt .pool st) env v)
    (hnext : ∀ env v (y : topupTold.Stand),
      topupTold.admits l x.1.1 (.stmt .pool st) env v →
      y.1.1 = x.1.1.after (.stmt .pool st) (engine.reply st env v.world) →
      Topping l Q (f (engine.reply st env v.world)) y) :
    Topping l Q ((ask .pool st).bind f) x := by
  refine Reliance.ask_bind ?_ ?_
  · intro g v env hleft _ _ hadm
    obtain rfl := topupTold_left hleft
    exact htakes env v hadm
  · intro g v env hleft _ _ hadm
    obtain rfl := topupTold_left hleft
    exact hnext env v _ hadm rfl

end Rules

theorem reserveOf_append (rows rows' : List BalanceRow) (place : String × String × String) :
    reserveOf (rows ++ rows') place = reserveOf rows place + reserveOf rows' place := by
  rw [reserveOf, List.map_append, List.sum_append]
  rfl

/-- Rows that all count alike. -/
theorem reserveOf_eq {rows : List BalanceRow} {c : Int} (h : ∀ r ∈ rows, r.key.sign = c)
    (place : String × String × String) :
    reserveOf rows place = c * totalAmount (fun x => x.place = place)
      (rows.map entryToBalance) := by
  induction rows with
  | nil => exact (Int.mul_zero c).symm
  | cons r rows ih =>
    have hrest := ih fun r' hr' => h r' (List.mem_cons_of_mem _ hr')
    have hhead : reserveOf (r :: rows) place = r.share place + reserveOf rows place := rfl
    have htotal : totalAmount (fun x => x.place = place) ((r :: rows).map entryToBalance) =
        (if r.key.place = place then r.amount else 0) +
          totalAmount (fun x => x.place = place) (rows.map entryToBalance) := by
      rw [totalAmount, totalAmount, List.map_cons, List.filter_cons]
      by_cases hplace : r.key.place = place
      · have hthere : (entryToBalance r).place = place := hplace
        rw [if_pos (decide_eq_true hthere), if_pos hplace]
        rfl
      · have helse : ¬ (entryToBalance r).place = place := hplace
        rw [if_neg (by simpa using helse), if_neg hplace, Int.zero_add]
    rw [hhead, htotal, hrest, Int.mul_add, BalanceRow.share, h r List.mem_cons_self]
    split
    · rfl
    · rw [Int.mul_zero]

theorem covers_le {b : Balance} {amount : Money} (h : b.covers amount = .ok ()) :
    amount.value ≤ b.amount.value := by
  cases hsub : b.amount.sub amount with
  | error e =>
    rw [Balance.covers, hsub] at h
    cases h
  | ok out =>
    unfold Money.sub at hsub
    cases hless : b.amount.subNegative amount with
    | error e =>
      rw [hless] at hsub
      cases hsub
    | ok less =>
      rw [hless] at hsub
      dsimp only at hsub
      split at hsub
      · cases hsub
      · rename_i hnegative
        unfold Money.subNegative at hless
        split at hless
        · cases hless
          have hvalue : ¬ b.amount.value - amount.value < 0 :=
            fun hlt => hnegative (decide_eq_true hlt)
          omega
        · cases hless

/-- What the call has checked: the reserve it was shown covers its amount. -/
structure TopupNote.Backs (l : TopupCall) (g : TopupNote) : Prop where
  full : g.Full
  covers : ∀ k : BalanceKey, (∀ r ∈ g.shown, (r.key.currency = l.input.currency.ticker ∧
    r.key.networkID = l.input.currency.chooseNetwork l.input.isTest) ∨ r.key.path = k.path →
      r.key.place = k.place) → l.input.amount.value ≤ reserveOf g.shown k.place

/-- The balance that was found is the reserve of the two lists. -/
theorem TopupNote.backs_of_found {l : TopupCall} {g : TopupNote}
    {merchants wallets : List BalanceRow}
    {bs : List Balance} {b : Balance} (hmerchants : g.merchants = some merchants)
    (hwallets : g.wallets = some wallets) (howed : ∀ r ∈ merchants, r.key.entityType = .merchant)
    (hheld : ∀ r ∈ wallets, r.key.entityType = .wallet)
    (hbs : composeSystemBalances (merchants.map entryToBalance) (wallets.map entryToBalance) =
      .ok bs)
    (hfound : bs.find? (fun b => b.id.currency = l.input.currency.ticker &&
      b.id.networkID = l.input.currency.chooseNetwork l.input.isTest) = some b)
    (hcovers : b.covers l.input.amount = .ok ()) : g.Backs l := by
  have hshown : g.shown = merchants ++ wallets := by
    rw [TopupNote.shown, hmerchants, hwallets]
    rfl
  refine ⟨⟨by rw [hmerchants]; rfl, by rw [hwallets]; rfl⟩, ?_⟩
  rw [hshown]
  intro k halone
  rcases composeSystemBalances_cases (merchants.map entryToBalance) (wallets.map entryToBalance)
    with ⟨bs', m, hok, hsummed, hperm⟩ | ⟨⟨e, he⟩, -⟩
  swap
  · rw [hbs] at he
    cases he
  obtain rfl : bs = bs' := Except.ok.inj (hbs.symm.trans hok)
  have hb : b ∈ m.rows := hperm.mem_iff.mp (List.mem_of_find?_eq_some hfound)
  obtain ⟨hticker, hnetwork⟩ : b.id.currency = l.input.currency.ticker ∧
      b.id.networkID = l.input.currency.chooseNetwork l.input.isTest := by
    simpa using List.find?_some hfound
  -- the wallet it was made of is of this place
  have hplace : b.place = k.place := by
    obtain ⟨x, hx, hxb⟩ := hsummed.made b hb
    obtain ⟨r, hr, rfl⟩ := List.mem_map.mp hx
    have hsame : r.key.place = b.id.place := hxb
    refine hxb.symm.trans (halone r (List.mem_append_right _ hr) (.inl ⟨?_, ?_⟩))
    · exact (congrArg (·.1) hsame).trans hticker
    · exact (congrArg (·.2.2) hsame).trans hnetwork
  have hkey : ∀ rows : List BalanceRow, (∀ r ∈ rows, r ∈ merchants ++ wallets) →
      totalAmount (fun x => keyFunc x = keyFunc b) (rows.map entryToBalance) =
        totalAmount (fun x => x.place = k.place) (rows.map entryToBalance) := by
    intro rows hrows
    apply totalAmount_congr
    intro x hx
    obtain ⟨r, hr, rfl⟩ := List.mem_map.mp hx
    constructor
    · intro hpath
      refine halone r (hrows r hr) (.inr ?_)
      exact hpath.trans (path_of_place hplace)
    · intro hthere
      exact keyFunc_of_place (hthere.trans hplace.symm)
  have hsign : ∀ r ∈ merchants, r.key.sign = -1 := by
    intro r hr
    rw [BalanceKey.sign, howed r hr]
  have hsign' : ∀ r ∈ wallets, r.key.sign = 1 := by
    intro r hr
    rw [BalanceKey.sign, hheld r hr]
  have hvalue := hsummed.value b hb
  rw [hkey wallets fun r => List.mem_append_right _,
    hkey merchants fun r => List.mem_append_left _] at hvalue
  have hle := covers_le hcovers
  rw [reserveOf_append, reserveOf_eq hsign, reserveOf_eq hsign']
  omega

section Parts

variable {α : Type} {s : Service} {l : TopupCall} {x : topupTold.Stand}

theorem rely_note {y : topupTold.Stand}
    (h : (topupTold.setting engine TakesWhatIsThere l).rely x y) : y.1.1 = x.1.1 :=
  topupTold_left h.2

theorem listed_of_reply {t : EntityType} {hide : Bool} {env : Env} {w : World}
    {rows : List BalanceRow}
    (h : engine.reply (.listAllBalancesByType t hide) env w = .ok rows) :
    ∀ r ∈ rows, r.key.entityType = t := by
  obtain ⟨-, hok⟩ := answered_eq_ok h
  cases hok
  intro r hr
  have hlisted := (List.mem_filter.mp (List.mem_reverse.mp hr)).2
  simp only [Bool.and_eq_true, decide_eq_true_eq] at hlisted
  exact hlisted.1

/-- The call is shown the two lists that its system balances are made of. -/
theorem listAllBalances_shows (hx : x.1.1 = {}) :
    Topping l (fun out y => ∀ balances, out = .ok balances → ∃ merchants wallets,
        y.1.1.merchants = some merchants ∧ y.1.1.wallets = some wallets ∧
        (∀ r ∈ merchants, r.key.entityType = .merchant) ∧
        (∀ r ∈ wallets, r.key.entityType = .wallet) ∧
        composeSystemBalances (merchants.map entryToBalance) (wallets.map entryToBalance) =
          .ok balances.system)
      (listAllBalances { withSystemBalances := true }) x := by
  refine topping_ask (fun env v _ => takes_of_other (by decide) rfl) ?_
  intro env v y _ hy
  cases hmerchants : engine.reply (.listAllBalancesByType .merchant false) env v.world with
  | error e => exact Meets.fail fun _ _ _ h => by cases h
  | ok merchants =>
  rw [hmerchants, hx] at hy
  refine topping_ask (fun env v _ => takes_of_other (by decide) rfl) ?_
  intro env' v' z _ hz
  cases hwallets : engine.reply (.listAllBalancesByType .wallet false) env' v'.world with
  | error e => exact Meets.fail fun _ _ _ h => by cases h
  | ok wallets =>
  rw [hwallets, hy] at hz
  refine Meets.ofExcept_bind (x := wrapErr "unable to compose system balances"
    (composeSystemBalances (merchants.map entryToBalance) (wallets.map entryToBalance))) ?_
    fun _ _ _ _ _ h => by cases h
  intro bs hbs t ht balances hbalances
  cases hbalances
  rw [rely_note ht, hz]
  refine ⟨merchants, wallets, rfl, rfl, listed_of_reply hmerchants, listed_of_reply hwallets, ?_⟩
  exact wrapErr_eq_ok.mp hbs

/-- A system balance that covers the amount is a reserve that does. -/
theorem locateSystemBalance_shows (hx : x.1.1 = {}) :
    Topping l (fun out y => ∀ b, out = .ok b → b.covers l.input.amount = .ok () →
        y.1.1.Backs l)
      (Service.locateSystemBalance l.input.currency l.input.isTest) x := by
  refine Meets.bind (Meets.mono ?_ (listAllBalances_shows hx))
  rintro out y hout
  cases out with
  | error e => exact fun _ h => by cases h
  | ok balances =>
    obtain ⟨merchants, wallets, hmerchants, hwallets, howed, hheld, hbs⟩ := hout balances rfl
    dsimp only
    split
    · rename_i systemBalance hfound
      intro z hz b hb hcovers
      cases hb
      rw [rely_note hz]
      exact TopupNote.backs_of_found hmerchants hwallets howed hheld hbs hfound hcovers
    · exact Meets.fail fun _ _ _ h => by cases h

theorem TopupNote.Backs.keep {g : TopupNote} (h : g.Backs l) (made : Option TransactionRow) :
    TopupNote.Backs l { g with made := made } :=
  ⟨⟨h.full.merchants, h.full.wallets⟩, h.covers⟩

/-- A credit of the amount is covered by what the call was shown, if nobody has
taken from it since. -/
theorem takes_of_credit {st : Stmt} {g : TopupNote} {env : Env} {v : View Stmt Env World LockKey}
    (hbacks : g.Backs l) (hmoves : ∀ m ∈ movement ⟨st, env, v.world⟩,
      m.1.entityType = .merchant ∧ m.2 = l.input.amount.value)
    (hadm : topupTold.admits l g (.stmt .pool st) env v) :
    TakesWhatIsThere l g (.stmt .pool st) env v := by
  refine ⟨?_, trivial⟩
  intro m hm
  obtain ⟨hentity, hamount⟩ := hmoves m hm
  rcases hadm.1.1 m hm with ⟨halone, hlasts⟩ | hcovered
  · have hle := hbacks.covers m.1 halone
    have hsign : m.1.sign = -1 := by rw [BalanceKey.sign, hentity]
    rw [hsign, hamount]
    omega
  · exact hcovered

theorem movement_create {p : CreateBalanceParams} {env : Env} {w : World} :
    ∀ m ∈ movement ⟨.createBalance p, env, w⟩, m = (p.key, p.amount) := by
  intro m hm
  simp only [movement] at hm
  split at hm
  · exact (Option.some.inj hm).symm
  · cases hm

theorem movement_update {p : UpdateBalanceByIDParams} {env : Env} {w : World} :
    ∀ m ∈ movement ⟨.updateBalanceByID p, env, w⟩, m = (p.key, p.amount) ∧
      (w.balanceTarget p).isSome = true := by
  intro m hm
  simp only [movement] at hm
  split at hm
  · rename_i hlands
    exact ⟨(Option.some.inj hm).symm, hlands.2⟩
  · cases hm

/-- Whichever row the credit goes to. -/
theorem upsertBalance_takes {q : UpdateBalanceQuery} (hq : Credits s l q)
    (hbacks : x.1.1.Backs l) {found : Except Err BalanceRow}
    (hfound : ∀ b, found = .ok b → TopupKey s l b.key) (now : Int) :
    Topping l (fun _ y => y.1.1 = x.1.1) (upsertBalance .pool q now found) x := by
  have hsigned : q.operation.signed q.amount = l.input.amount.value := by
    rw [hq.operation]
    exact hq.value
  have hend : ∀ (st : Stmt) (r : Reply st) (y : topupTold.Stand)
      (f : Reply st → Except Err BalanceRow), (∀ params, st ≠ .createTransaction params) →
      y.1.1 = x.1.1.after (.stmt .pool st) r →
      Topping l (fun _ z => z.1.1 = x.1.1) (.ret (f r)) y := by
    intro st r y f hst hy
    refine Meets.ret fun z hz => ?_
    rw [rely_note hz, hy]
    refine hbacks.full.after (c := .stmt .pool st) r fun params h => ?_
    cases h
    exact hst params rfl
  cases found with
  | ok b =>
    refine topping_ask (f := Prog.ret) (fun env v hadm => takes_of_credit hbacks ?_ hadm) ?_
    · intro m hm
      obtain ⟨rfl, -⟩ := movement_update m hm
      exact ⟨(hfound b rfl).entityType, hsigned⟩
    · exact fun env v y _ hy => hend _ _ y id (fun _ h => by cases h) hy
  | error e =>
    simp only [upsertBalance]
    split
    · refine topping_ask (f := Prog.ret) (fun env v hadm => takes_of_credit hbacks ?_ hadm) ?_
      · intro m hm
        obtain rfl := movement_create m hm
        exact ⟨hq.entityType, hsigned⟩
      · exact fun env v y _ hy => hend _ _ y id (fun _ h => by cases h) hy
    · -- the balance that was not found is not there
      refine topping_ask (f := Prog.ret) (fun env v hadm => takes_of_credit hbacks ?_ hadm) ?_
      · intro m hm
        obtain ⟨-, htarget⟩ := movement_update m hm
        have hnone : v.world.balances.get noBalance = none := hadm.2.1
        rw [World.balanceTarget, hnone] at htarget
        cases htarget
      · exact fun env v y _ hy => hend _ _ y id (fun _ h => by cases h) hy

/-- The credit and its audit row. -/
theorem updateBalance_takes {q : UpdateBalanceQuery} (hq : Credits s l q)
    (hbacks : x.1.1.Backs l) :
    Topping l (fun _ y => y.1.1 = x.1.1) (updateBalance .pool q) x := by
  unfold updateBalance
  cases hvalid : q.validate with
  | error e => exact Meets.fail fun y hy => rely_note hy
  | ok _ =>
  refine topping_ask (fun env v _ => takes_of_other (fun h => by cases h) rfl) ?_
  intro env v y _ hy
  rw [hbacks.full.after _ fun _ h => by cases h] at hy
  refine topping_ask (fun env v _ => takes_of_other (fun h => by cases h) rfl) ?_
  intro env' v' z _ hz
  rw [hy, hbacks.full.after _ fun _ h => by cases h] at hz
  have hbacks' : z.1.1.Backs l := hz ▸ hbacks
  refine Meets.seq (J := fun t => t.1.1 = x.1.1) (Meets.mono ?_ (upsertBalance_takes hq hbacks'
    (fun b hb => topupKey_of_found hq hb) (engine.reply .timeNow env' v'.world))) ?_
    fun _ _ ht => ht
  · exact fun _ t ht => ht.trans hz
  intro changed t ht
  have hfull : t.1.1.Full := ht ▸ hbacks.full
  refine Meets.mono (fun _ u hu => hu.trans ht) (topping_of_onPool
    (Φ := fun st => ∃ row, st = .insertBalanceAuditLog row) ?_ ?_ ?_ hfull)
  · apply OnPool.bind (.checked _)
    intro balance
    apply OnPool.bind
    · apply OnPool.mapError
      apply OnPool.bind (.read rfl)
      intro now
      apply OnPool.bind (.write ⟨_, rfl⟩)
      exact fun r => .checked r
    · exact fun _ => trivial
  · rintro st ⟨row, rfl⟩ h
    cases h
  · rintro params ⟨row, h⟩
    cases h

/-- The confirmation of the row the call was given. -/
theorem confirmOn_takes {row : TransactionRow} {p : Int} {m : Money} (hrow : TopupRow l p row)
    (hmade : x.1.1.made = some row) (hvalue : m.value = l.input.amount.value)
    (hbacks : x.1.1.Backs l) :
    Topping l (fun _ y => y.1.1 = x.1.1)
      (s.confirmOn .pool l.merchantID row.id (Service.topupConfirmation m)) x := by
  refine Meets.seq (topping_of_reads (OnPool.bind (.read rfl) fun _ => .checked _) hbacks.full) ?_
    fun _ _ h => h
  intro tx y hy
  split
  · exact Meets.fail fun z hz => (rely_note hz).trans hy
  refine topping_ask (fun env v _ => takes_of_other (fun h => by cases h) rfl) ?_
  intro env v z _ hz
  rw [hy, hbacks.full.after _ fun _ h => by cases h] at hz
  refine topping_ask (fun env v _ => takes_of_other (fun h => by cases h) rfl) ?_
  intro env' v' t hadm ht
  rw [hz] at hadm ht
  rw [hbacks.full.after _ fun _ h => by cases h] at ht
  refine Meets.ofExcept_bind ?_ fun _ _ u hu => (rely_note hu).trans ht
  intro updated hupdated
  obtain ⟨entry, hreply, htx⟩ := s.toTransaction_eq_ok hupdated
  obtain ⟨-, old, htarget, rfl⟩ := reply_updateTransaction hreply
  obtain ⟨-, hget, -⟩ := updateTarget_eq_some htarget
  -- the row is still the one the call was given
  obtain ⟨r, hr, htype, hentity, hmerchant, hcurrency, htest⟩ := hadm.2.2 row hmade
  obtain rfl : r = old := Option.some.inj (hr.symm.trans hget)
  obtain ⟨currency, fee, hlisted, -, rfl⟩ := s.entryToTransaction_eq_ok htx
  have hown : TopupRow l p (World.updatedTransaction
      ((Service.topupConfirmation m).toRepo l.merchantID row.id
        (engine.reply .timeNow env v.world) (tx.metaData.merge
          (Service.topupConfirmation m).metaData)) r) :=
    ⟨htype.trans hrow.type, hentity.trans hrow.entityID, hmerchant.trans hrow.merchantID,
      hcurrency.trans hrow.currency, htest.trans hrow.isTest⟩
  have hbacks' : t.1.1.Backs l := ht ▸ hbacks
  refine Meets.seq (J := fun u => u.1.1 = x.1.1) (Meets.mapError_of_all ?_) ?_ fun _ _ hu => hu
  · rcases updateBalances_credits (m := m) fee hown hlisted rfl hvalue with
      ⟨e, hfails⟩ | ⟨q, f, hcredits, hprog⟩
    · rw [hfails]
      exact Meets.fail fun u hu => (rely_note hu).trans ht
    · rw [hprog]
      refine Meets.seq (J := fun u => u.1.1 = x.1.1) (Meets.mapError_of_all
        (Meets.mono ?_ (updateBalance_takes hcredits hbacks'))) ?_ fun _ _ hu => hu
      · exact fun _ u hu => hu.trans ht
      · exact fun _ u hu => Meets.ret fun u' hu' => (rely_note hu').trans hu
  · exact fun _ u hu => Meets.ret fun u' hu' => (rely_note hu').trans hu

/-- The row the call is given is the one it asked for. -/
theorem createTopupTransaction_takes {pt : Payment} (usdAmount : Money) (hbacks : x.1.1.Backs l) :
    Topping l (fun out y => y.1.1.Backs l ∧ ∀ tx, out = .ok tx → ∃ row,
        y.1.1.made = some row ∧ row.id = tx.id ∧ TopupRow l pt.id row ∧
        ∀ m, tx.factAmount = some m → m.value = l.input.amount.value)
      (s.createTopupTransaction l.merchantID
        (Service.topupTransaction pt l.input usdAmount)) x := by
  have hfail : ∀ (e : Err) (y : topupTold.Stand), y.1.1.Backs l →
      y.1.1.Backs l ∧ ∀ tx, (.error e : Except Err Transaction) = .ok tx → ∃ row,
        y.1.1.made = some row ∧ row.id = tx.id ∧ TopupRow l pt.id row ∧
        ∀ m, tx.factAmount = some m → m.value = l.input.amount.value :=
    fun _ _ h => ⟨h, fun _ hno => by cases hno⟩
  unfold Service.createTopupTransaction
  refine Meets.ofExcept_bind ?_ fun e _ y hy => hfail e y (rely_note hy ▸ hbacks)
  intro _ hvalid
  refine Meets.ofExcept_bind ?_ fun e _ y hy => hfail e y (rely_note hy ▸ hbacks)
  intro networkCurrency _
  refine topping_ask (fun env v _ => takes_of_other (fun h => by cases h) rfl) ?_
  intro env v y _ hy
  rw [hbacks.full.after _ fun _ h => by cases h] at hy
  refine topping_ask (fun env v _ => takes_of_other (fun h => by cases h) rfl) ?_
  intro env' v' z _ hz
  rw [hy] at hz
  let params := (Service.topupTransaction pt l.input usdAmount).systemTopupParams l.merchantID
    (engine.reply .timeNow env v.world) networkCurrency
  cases hcreated : engine.reply (.createTransaction params) env' v'.world with
  | error e =>
    rw [show (engine.reply (.createTransaction _) env' v'.world) = .error e from hcreated] at hz
    have hsame : z.1.1 = x.1.1 := hz
    exact Meets.fail fun t ht => hfail e t (by rw [rely_note ht, hsame]; exact hbacks)
  | ok row =>
    rw [show (engine.reply (.createTransaction _) env' v'.world) = .ok row from hcreated] at hz
    have hmade : z.1.1 = { x.1.1 with made := some row } := hz
    have hbacks' : z.1.1.Backs l := hmade ▸ hbacks.keep (some row)
    refine Meets.ofExcept fun t ht => ?_
    rw [rely_note ht]
    refine ⟨hbacks', ?_⟩
    intro tx htx
    have hrow : row = v'.world.newTransaction params := (reply_createTransaction hcreated).2.2
    obtain ⟨currency, fee, -, -, rfl⟩ := s.entryToTransaction_eq_ok htx
    refine ⟨row, by rw [hmade], rfl, ?_, ?_⟩
    · rw [hrow]
      exact topupRow_of_valid hvalid _ _ v'.world
    · intro m hm
      have hfact : row.factAmount = some l.input.amount.value := by rw [hrow]; rfl
      have hvalue : (row.factAmount.map fun a => Money.crypto row.currency a row.decimals) =
        some m := hm
      rw [hfact] at hvalue
      cases hvalue
      rfl

theorem createSystemTopup_takes {pt : Payment} (usdAmount : Money) (hbacks : x.1.1.Backs l) :
    Topping l (fun _ y => y.1.1.Backs l)
      (s.createSystemTopup l.merchantID (Service.topupTransaction pt l.input usdAmount)) x := by
  refine Meets.bind (Meets.mapError (Meets.mono ?_ (createTopupTransaction_takes usdAmount hbacks)))
  rintro out y ⟨hbacks', hmade⟩
  cases out with
  | error e => exact hbacks'
  | ok tx =>
    obtain ⟨row, hrow, hid, hown, hamount⟩ := hmade tx rfl
    dsimp only
    split
    · exact Meets.fail fun z hz => rely_note hz ▸ hbacks'
    · rename_i m hfact
      refine Meets.mapError_of_all ?_
      rw [← hid]
      refine Meets.mono ?_ (confirmOn_takes hown hrow (hamount m hfact) hbacks')
      intro _ z hz
      rw [hz]
      exact hbacks'

/-- A topup takes what it was shown, or what is still there. -/
theorem topup_takes (hx : x.1.1 = {}) :
    Topping l (fun _ _ => True) (s.topupMerchantFromSystem l.merchantID l.input) x := by
  refine topping_ask (fun env v _ => takes_of_other (fun h => by cases h) rfl) ?_
  intro env v y _ hy
  have hblank : y.1.1 = {} := by rw [hy, hx]; rfl
  refine Meets.ofExcept_bind ?_ fun _ _ _ _ => trivial
  intro merchant _
  refine Meets.bind (Meets.mapError (Meets.mono ?_ (locateSystemBalance_shows hblank)))
  intro out z hfound
  cases out with
  | error e => exact trivial
  | ok systemBalance =>
  refine Meets.ofExcept_bind ?_ fun _ _ _ _ => trivial
  intro _ hcovers
  have hbacks : z.1.1.Backs l := hfound systemBalance rfl (wrapErr_eq_ok.mp hcovers)
  have hkeep : ∀ {α : Type} {Φ : Stmt → Prop} {p : Call α} {y : topupTold.Stand},
      OnPool Φ p → (∀ st, Φ st → st.changes ≠ some .balances) →
      (∀ params, ¬ Φ (.createTransaction params)) → y.1.1.Backs l →
      Topping l (fun _ z => z.1.1.Backs l) p y := by
    intro α Φ p y hp hbalances hcreates hy
    refine Meets.mono ?_ (topping_of_onPool hp hbalances hcreates hy.full)
    intro _ z hz
    rw [hz]
    exact hy
  refine Meets.seq (hkeep (.read rfl) (fun _ => False.elim) (fun _ => id) hbacks) ?_
    fun _ _ _ => trivial
  intro conv y hy
  refine Meets.ofExcept_bind ?_ fun _ _ _ _ => trivial
  intro usdAmount _
  refine Meets.seq (Meets.mapError_of_all (hkeep (createTopupPayment_onPool _ _ _) ?_ (fun _ => id)
    hy)) ?_ fun _ _ _ => trivial
  · intro st hst
    cases st <;> first
      | exact hst.elim
      | exact fun h => by cases h
  intro pt y hy
  refine Meets.seq (Meets.attempt (createSystemTopup_takes usdAmount hy)) ?_ fun _ _ _ => trivial
  intro created y hy
  refine Meets.seq (J := fun y => y.1.1.Backs l) ?_ ?_ fun _ _ _ => trivial
  · cases created with
    | ok tx => exact Meets.ret fun z hz => rely_note hz ▸ hy
    | error e =>
      exact hkeep (failedTopup_onPool pt e) (fun _ => FailsPayment.changes)
        FailsPayment.not_transact hy
  · intro tx y hy
    refine Meets.seq (Meets.mapError_of_all
      (hkeep (getMerchantBalance_onPool (fun _ => False) _ _ _)
      (fun _ => False.elim) (fun _ => id) hy)) ?_ fun _ _ _ => trivial
    exact fun _ _ _ _ _ => trivial

end Parts

end CryptoLink
