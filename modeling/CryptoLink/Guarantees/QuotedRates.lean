import CryptoLink.Library.Outcomes
import CryptoLink.Services.PriceFeed

/-!
# What stands behind a rate

Every rate that a request is given goes back to what the markets answered, or
to a peg, and not too long ago: a rate is kept for its time to live, and one
that is made of two kept rates is kept for as long again.
-/

namespace CryptoLink

namespace PriceFeed

open ReadCommitted StatementPrograms System

variable {F : Type}

namespace Provider

variable (p : Provider F)

section Grounds

variable (log : List (Answered F)) (since : Int) (selected desired : String)

/-- What Binance's answer comes to, if it has been asked since. -/
inductive HeardBinance : Except Err String → Prop
  | unlisted (hnone : p.resolveBinanceSymbol selected desired = none) :
      HeardBinance (.error (noSymbol selected desired))
  | heard (pair : BinancePair) (time : Int) (answer : Except Err String)
      (hpair : p.resolveBinanceSymbol selected desired = some pair)
      (hmem : ⟨time, .binance pair.symbol answer⟩ ∈ log) (htime : since ≤ time) :
      HeardBinance (p.binanceValue pair answer)

/-- What CoinGecko's answer comes to. -/
inductive HeardGecko : Except Err String → Prop
  | unlisted (hnone : resolveCoinGeckoID selected = "") : HeardGecko (.error (noCoin selected))
  | heard (time : Int) (answer : Except Err (GeckoPrices F))
      (hmem : ⟨time, .coinGecko (resolveCoinGeckoID selected) (p.toLower desired) answer⟩ ∈ log)
      (htime : since ≤ time) :
      HeardGecko (p.geckoValue (resolveCoinGeckoID selected) (p.toLower desired) answer)

/-- A valid price, if the answer is one. -/
def valid (x : Except Err String) : Option String := x.toOption.filter p.validateRate

/-- The price that two answers make: Binance's first, and none if they are too far apart. -/
def chosen (fromBinance fromGecko : Except Err String) : Option String :=
  match p.valid fromBinance, p.valid fromGecko with
  | some a, some b => if p.diverges a b then none else some a
  | some a, none => some a
  | none, b => b

/-- Why the value is the rate of a pair. -/
inductive Direct : String → Prop
  | sameCoin (hstable : p.isStablecoin selected = true)
      (hbase : p.stableBase selected = p.stableBase desired) : Direct "1.0"
  | fiat (hselected : p.isFiat selected = true) (hdesired : p.isFiat desired = true) :
      Direct "1.0"
  | market (a b : Except Err String) (value : String)
      (ha : p.HeardBinance log since selected desired a)
      (hb : p.HeardGecko log since selected desired b) (hchosen : p.chosen a b = some value) :
      Direct value
  | peg (a b : Except Err String) (ha : p.HeardBinance log since selected desired a)
      (hb : p.HeardGecko log since selected desired b) (hnone : p.valid a = none)
      (hnone' : p.valid b = none) (hstable : p.isStablecoin selected = true)
      (husd : desired ∈ usdUnits) : Direct "1.0"

/-- The value stands for itself, or is made of two that do, which may be older. -/
inductive Grounded (since' : Int) : String → Prop
  | direct (value : String) (hdirect : p.Direct log since selected desired value) :
      Grounded since' value
  | composed (a b value : String) (hcomposes : p.composes selected desired = true)
      (ha : p.Direct log since' selected "USDT" a) (hb : p.Direct log since' "USDT" desired b)
      (hvalue : p.composedValue a b = some value) : Grounded since' value

end Grounds

variable {p} {log log' : List (Answered F)} {since since' since₁ since₁' : Int}
  {selected desired : String}

theorem HeardBinance.mono {x : Except Err String}
    (h : p.HeardBinance log since selected desired x) (hlog : log ⊆ log')
    (hsince : since' ≤ since) : p.HeardBinance log' since' selected desired x := by
  cases h with
  | unlisted hnone => exact .unlisted hnone
  | heard pair time answer hpair hmem htime =>
    exact .heard pair time answer hpair (hlog hmem) (Int.le_trans hsince htime)

theorem HeardGecko.mono {x : Except Err String}
    (h : p.HeardGecko log since selected desired x) (hlog : log ⊆ log')
    (hsince : since' ≤ since) : p.HeardGecko log' since' selected desired x := by
  cases h with
  | unlisted hnone => exact .unlisted hnone
  | heard time answer hmem htime =>
    exact .heard time answer (hlog hmem) (Int.le_trans hsince htime)

theorem Direct.mono {value : String} (h : p.Direct log since selected desired value)
    (hlog : log ⊆ log') (hsince : since' ≤ since) :
      p.Direct log' since' selected desired value := by
  cases h with
  | sameCoin hstable hbase => exact .sameCoin hstable hbase
  | fiat hselected hdesired => exact .fiat hselected hdesired
  | market a b value ha hb hchosen =>
    exact .market a b value (ha.mono hlog hsince) (hb.mono hlog hsince) hchosen
  | peg a b ha hb hnone hnone' hstable husd =>
    exact .peg a b (ha.mono hlog hsince) (hb.mono hlog hsince) hnone hnone' hstable husd

theorem Grounded.mono {value : String} (h : p.Grounded log since selected desired since₁ value)
    (hlog : log ⊆ log') (hsince : since' ≤ since) (hsince₁ : since₁' ≤ since₁) :
    p.Grounded log' since' selected desired since₁' value := by
  cases h with
  | direct value hdirect => exact .direct value (hdirect.mono hlog hsince)
  | composed a b value hcomposes ha hb hvalue =>
    exact .composed a b value hcomposes (ha.mono hlog hsince₁) (hb.mono hlog hsince₁) hvalue

/-- What is not made of others stands for itself. -/
theorem Grounded.direct_of_not_composes {value : String}
    (h : p.Grounded log since selected desired since₁ value)
    (hcomposes : p.composes selected desired = false) :
    p.Direct log since selected desired value := by
  cases h with
  | direct value hdirect => exact hdirect
  | composed a b value hmade ha hb hvalue =>
    rw [hcomposes] at hmade
    cases hmade

theorem append_cons_inj {α : Type} {c : α} {xs ys zs ws : List α} (hxs : c ∉ xs) (hys : c ∉ ys)
    (h : xs ++ c :: zs = ys ++ c :: ws) : xs = ys ∧ zs = ws := by
  induction xs generalizing ys with
  | nil =>
    cases ys with
    | nil => exact ⟨rfl, (List.cons.inj h).2⟩
    | cons y ys => exact absurd ((List.cons.inj h).1 ▸ List.mem_cons_self) hys
  | cons x xs ih =>
    cases ys with
    | nil => exact absurd ((List.cons.inj h).1 ▸ List.mem_cons_self) hxs
    | cons y ys =>
      obtain ⟨rfl, hrest⟩ := List.cons.inj h
      obtain ⟨rfl, hzs⟩ := ih (fun hc => hxs (List.mem_cons_of_mem _ hc))
        (fun hc => hys (List.mem_cons_of_mem _ hc)) hrest
      exact ⟨rfl, hzs⟩

/-- A key names its pair, as long as the second ticker has no slash. -/
theorem cacheKey_inj {selected' desired' : String} (hslash : '/' ∉ desired.toList)
    (hslash' : '/' ∉ desired'.toList)
    (h : cacheKey selected desired = cacheKey selected' desired') :
    selected = selected' ∧ desired = desired' := by
  have hlists : selected.toList ++ '/' :: desired.toList =
      selected'.toList ++ '/' :: desired'.toList := by
    have hkeys := congrArg String.toList h
    simpa [cacheKey, String.toList_append] using hkeys
  have hreverse := congrArg List.reverse hlists
  simp only [List.reverse_append, List.reverse_cons, List.append_assoc, List.singleton_append]
    at hreverse
  obtain ⟨hdesired, hselected⟩ := append_cons_inj
    (by rwa [List.mem_reverse]) (by rwa [List.mem_reverse]) hreverse
  exact ⟨String.toList_inj.mp (List.reverse_inj.mp hselected),
    String.toList_inj.mp (List.reverse_inj.mp hdesired)⟩

/-- A request and when it began. -/
structure Ask where
  desired : String
  selected : String
  begun : Int
  deriving DecidableEq, Repr

variable (p)

/-- Time passes. -/
def feed : System Stmt (Reply F) (Env F) (World F) Empty (Except Err ExchangeRate) Ask ℕ where
  engine := p.engine
  program ask := (p.getExchangeRate ask.desired ask.selected).reported
  move n w := { w with clock := w.clock + n }

/-- An entry has its grounds, counted from when it was made. -/
structure Kept (lasting : Int) (log : List (Answered F)) (key : String) (e : CachedRate)
    (selected desired : String) : Prop where
  key : key = cacheKey selected desired
  slash : '/' ∉ desired.toList
  grounded : p.Grounded log (e.fetchedAt - lasting) selected desired
    (e.fetchedAt - p.ttl - 2 * lasting) e.rate.value

def Stored (lasting : Int) (w : World F) : Prop :=
  ∀ key e, w.entries key = some e → 
    ∃ selected desired, p.Kept lasting w.answered key e selected desired

/-- A statement that stores a rate has grounds for it. -/
def promise (lasting : Int) (w : World F) : Stmt → Prop
  | .set key rate => ∃ selected desired, key = cacheKey selected desired ∧ '/' ∉ desired.toList ∧
      p.Grounded w.answered (w.clock - lasting) selected desired
        (w.clock - p.ttl - 2 * lasting) rate.value
  | _ => True

/-- No request lasts longer than `lasting`. -/
def terms (lasting : Int) : Terms Stmt (Env F) (World F) Ask where
  holds := p.Stored lasting
  moves w w' := w.clock ≤ w'.clock ∧ w.answered ⊆ w'.answered
  admits ask _ _ w := ask.begun ≤ w.clock ∧ w.clock ≤ ask.begun + lasting
  promise _ s w := p.promise lasting w s
  refl _ := ⟨Int.le_refl _, fun _ h => h⟩
  trans h h' := ⟨Int.le_trans h.1 h'.1, fun _ hx => h'.2 (h.2 hx)⟩

instance (lasting : Int) (ask : Ask) (c : Cmd Stmt) (env : Env F) (w : World F) :
    Decidable ((p.terms lasting).admits ask c env w) :=
  inferInstanceAs (Decidable (_ ∧ _))

/-- What is relied on of `strings.ToUpper`. -/
structure Uppercase : Prop where
  usdt : p.toUpper "USDT" = "USDT"
  idem : ∀ t, p.toUpper (p.toUpper t) = p.toUpper t

variable {p} {lasting : Int}

theorem Stored.later {w w' : World F} (h : p.Stored lasting w) (hentries : w'.entries = w.entries)
    (hlog : w.answered ⊆ w'.answered) : p.Stored lasting w' := by
  intro key e he
  rw [hentries] at he
  obtain ⟨selected, desired, hkept⟩ := h key e he
  exact ⟨selected, desired, hkept.key, hkept.slash,
    hkept.grounded.mono hlog (Int.le_refl _) (Int.le_refl _)⟩

theorem Stored.stored {w : World F} (h : p.Stored lasting w) {key : String} {rate : ExchangeRate}
    (hpromise : p.promise lasting w (.set key rate)) : p.Stored lasting (w.stored key rate) := by
  intro key' e he
  by_cases hkey : key' = key
  · subst hkey
    obtain ⟨selected, desired, hkey, hslash, hgrounded⟩ := hpromise
    have hnew : e = ⟨rate, w.clock⟩ := by
      rw [World.entries_stored] at he
      exact (Option.some.inj he).symm
    subst hnew
    exact ⟨selected, desired, hkey, hslash, hgrounded⟩
  · rw [World.entries_stored_of_ne w hkey] at he
    exact h key' e he

theorem sound_terms : (p.terms lasting).Sound p.feed where
  stmt ask s env w hpromise hadmits hholds := by
    cases s with
    | set key rate => exact ⟨⟨Int.le_refl _, fun _ h => h⟩, Stored.stored hholds hpromise⟩
    | binance symbol =>
      have hlog : w.answered ⊆ (w.heard (.binance symbol env.binance)).answered :=
        List.subset_cons_self _ _
      exact ⟨⟨Int.le_refl _, hlog⟩, Stored.later hholds rfl hlog⟩
    | coinGecko id vsCurrency =>
      have hlog : w.answered ⊆ (w.heard (.coinGecko id vsCurrency env.coinGecko)).answered :=
        List.subset_cons_self _ _
      exact ⟨⟨Int.le_refl _, hlog⟩, Stored.later hholds rfl hlog⟩
    | get key => exact ⟨⟨Int.le_refl _, fun _ h => h⟩, hholds⟩
    | now => exact ⟨⟨Int.le_refl _, fun _ h => h⟩, hholds⟩
  move n w := by
    have hclock : w.clock ≤ w.clock + n := by omega
    exact ⟨⟨hclock, fun _ h => h⟩, fun hholds => Stored.later hholds rfl fun _ h => h⟩

section Program

variable {ask : Ask} {α β : Type} {w : World F}

/-- Rate calls under the terms. -/
abbrev Ends (p : Provider F) (lasting : Int) (ask : Ask) (Q : Except Err α → World F → Prop)
    (c : Call F α) (w : World F) : Prop :=
  Meets ((p.terms lasting).setting p.engine ask) Q c w

theorem ends_query_bind {Q : Except Err β → World F → Prop} {s : Stmt} {f : Reply F s → Call F β}
    (h : ∀ (env : Env F) (w' : World F), (p.terms lasting).moves w w' → p.Stored lasting w' →
      ask.begun ≤ w'.clock → w'.clock ≤ ask.begun + lasting →
      p.promise lasting w' s ∧ p.Ends lasting ask Q (f (p.reply env w' s)) (effect env w' s)) :
    p.Ends lasting ask Q (query s >>= f) w := by
  rintro w' ⟨hmoved, -⟩ r t ⟨hholds, env, ⟨hbegun, hlasting⟩, rfl, rfl⟩
  obtain ⟨hpromise, hrest⟩ := h env w' hmoved hholds hbegun hlasting
  exact ⟨⟨s, rfl, hpromise⟩, hrest⟩

theorem ends_getBinanceRate (selected desired : String) :
    p.Ends lasting ask (fun x t => p.HeardBinance t.answered ask.begun selected desired
      (x.map ExchangeRate.value)) (p.getBinanceRate selected desired) w := by
  rw [getBinanceRate]
  split
  · rename_i hnone
    exact Meets.fail fun _ _ => .unlisted hnone
  · rename_i pair hpair
    refine ends_query_bind fun env w' _ _ hbegun _ => ⟨trivial, ?_⟩
    refine Meets.ofExcept_bind ?_ ?_
    · intro value hvalue
      refine ends_query_bind fun env' w'' hmoved _ _ _ => ⟨trivial, Meets.ret fun t ht => ?_⟩
      have hmem := ht.1.2 (hmoved.2 List.mem_cons_self)
      rw [show Except.map ExchangeRate.value (.ok ⟨value, p.reply env' w'' .now⟩) =
        p.binanceValue pair env.binance from hvalue.symm]
      exact .heard pair w'.clock env.binance hpair hmem hbegun
    · intro e he t ht
      have hmem := ht.1.2 List.mem_cons_self
      rw [show Except.map ExchangeRate.value (.error e) =
        p.binanceValue pair env.binance from he.symm]
      exact .heard pair w'.clock env.binance hpair hmem hbegun

theorem ends_getCoinGeckoRate (selected desired : String) :
    p.Ends lasting ask (fun x t => p.HeardGecko t.answered ask.begun selected desired
      (x.map ExchangeRate.value)) (p.getCoinGeckoRate selected desired) w := by
  rw [getCoinGeckoRate]
  split
  · rename_i hnone
    exact Meets.fail fun _ _ => .unlisted hnone
  · refine ends_query_bind fun env w' _ _ hbegun _ => ⟨trivial, ?_⟩
    refine Meets.ofExcept_bind ?_ ?_
    · intro value hvalue
      refine ends_query_bind fun env' w'' hmoved _ _ _ => ⟨trivial, Meets.ret fun t ht => ?_⟩
      have hmem := ht.1.2 (hmoved.2 List.mem_cons_self)
      rw [show Except.map ExchangeRate.value (.ok ⟨value, p.reply env' w'' .now⟩) =
        p.geckoValue _ _ env.coinGecko from hvalue.symm]
      exact .heard w'.clock env.coinGecko hmem hbegun
    · intro e he t ht
      have hmem := ht.1.2 List.mem_cons_self
      rw [show Except.map ExchangeRate.value (.error e) =
        p.geckoValue _ _ env.coinGecko from he.symm]
      exact .heard w'.clock env.coinGecko hmem hbegun

/-- A rate is given with grounds, counted from when the request began. -/
def Given (p : Provider F) (lasting : Int) (ask : Ask) (selected desired : String)
    (x : Except Err ExchangeRate) (t : World F) : Prop :=
  ∀ rate, x = .ok rate → p.Grounded t.answered (ask.begun - p.ttl - lasting) selected desired
    (ask.begun - 2 * p.ttl - 2 * lasting) rate.value

theorem Given.error {selected desired : String} (e : Err) (t : World F) :
    p.Given lasting ask selected desired (.error e) t := by
  intro rate hrate
  cases hrate

theorem ttl_nonneg : 0 ≤ p.ttl := by
  unfold ttl
  split
  · omega
  · omega

theorem ends_keep {selected desired : String} {rate : ExchangeRate}
    (hslash : '/' ∉ desired.toList)
    (hgrounded : p.Grounded w.answered ask.begun selected desired (ask.begun - p.ttl - lasting)
      rate.value) :
    p.Ends lasting ask (p.Given lasting ask selected desired)
      (keep (cacheKey selected desired) rate) w := by
  refine ends_query_bind fun env w' hmoved _ hbegun hlasting => ⟨?_, Meets.ret fun t ht => ?_⟩
  · exact ⟨selected, desired, rfl, hslash,
      hgrounded.mono hmoved.2 (by omega) (by omega)⟩
  · intro r hr
    cases hr
    have httl : 0 ≤ p.ttl := ttl_nonneg
    exact hgrounded.mono (fun _ hx => ht.1.2 (hmoved.2 hx)) (by omega) (by omega)

theorem ends_pegged {selected desired : String} (hslash : '/' ∉ desired.toList)
    (hdirect : p.Direct w.answered ask.begun selected desired "1.0") :
    p.Ends lasting ask (p.Given lasting ask selected desired)
      (pegged (cacheKey selected desired)) w := by
  refine ends_query_bind fun env w' hmoved _ _ _ => ⟨trivial, ?_⟩
  exact ends_keep hslash (.direct "1.0" (hdirect.mono hmoved.2 (Int.le_refl _)))

theorem valid_map (x : Except Err ExchangeRate) :
    p.valid (x.map ExchangeRate.value) = (p.validated x).map ExchangeRate.value := by
  cases x with
  | error e => rfl
  | ok rate =>
    by_cases hvalid : p.validateRate rate.value = true
    · simp [valid, validated, Except.map, Except.toOption, Option.filter, hvalid]
    · simp [valid, validated, Except.map, Except.toOption, Option.filter, hvalid]

theorem ends_bind {P : Except Err β → World F → Prop} {Q : Except Err α → World F → Prop}
    {c : Call F β} {f : Except Err β → Call F α} (hc : p.Ends lasting ask P c w)
    (hf : ∀ x t, P x t → (p.terms lasting).moves w t → p.Ends lasting ask Q (f x) t) :
    p.Ends lasting ask Q (c.attempt >>= f) w := by
  refine Meets.bind (Meets.attempt ?_)
  refine (Terms.meets_moves sound_terms ((p.terms lasting).refl w) hc).mono ?_
  rintro x t ⟨hx, hmoved⟩
  exact hf x t hx hmoved

theorem ends_marketRate {selected desired : String} (hslash : '/' ∉ desired.toList) :
    p.Ends lasting ask (p.Given lasting ask selected desired)
      (p.marketRate selected desired) w := by
  refine ends_bind (ends_getBinanceRate selected desired) fun fromBinance t₁ hb _ => ?_
  refine ends_bind (ends_getCoinGeckoRate selected desired) fun fromGecko t hg hmoved => ?_
  have hb := hb.mono hmoved.2 (Int.le_refl _)
  have hkeep : ∀ rate : ExchangeRate,
      p.chosen (fromBinance.map ExchangeRate.value) (fromGecko.map ExchangeRate.value) =
        some rate.value →
      p.Ends lasting ask (p.Given lasting ask selected desired)
        (keep (cacheKey selected desired) rate) t :=
    fun rate hchosen => ends_keep hslash (.direct _ (.market _ _ _ hb hg hchosen))
  have hvalid := valid_map (p := p) fromBinance
  have hvalid' := valid_map (p := p) fromGecko
  simp only [chosen, hvalid, hvalid'] at hkeep
  cases hfirst : p.validated fromBinance with
  | some a =>
    rw [hfirst] at hkeep
    cases hsecond : p.validated fromGecko with
    | some b =>
      rw [hsecond] at hkeep
      dsimp only
      split
      · exact Meets.fail fun _ _ => Given.error _ _
      · rename_i hclose
        exact hkeep a (if_neg hclose)
    | none =>
      rw [hsecond] at hkeep
      exact hkeep a rfl
  | none =>
    rw [hfirst] at hkeep hvalid
    cases hsecond : p.validated fromGecko with
    | some b =>
      rw [hsecond] at hkeep
      exact hkeep b rfl
    | none =>
      rw [hsecond] at hvalid'
      dsimp only
      split
      · rename_i hpeg
        rw [Bool.and_eq_true] at hpeg
        exact ends_pegged hslash
          (.peg _ _ hb hg hvalid hvalid' hpeg.1 (List.contains_iff_mem.mp hpeg.2))
      · exact Meets.fail fun _ _ => Given.error _ _

theorem composes_usdt (hupper : p.Uppercase) (selected : String) :
    p.composes selected "USDT" = false := by
  have hunit : p.isNonUSDFiat "USDT" = false := by
    rw [isNonUSDFiat, hupper.usdt]
    rfl
  rw [composes, hunit, Bool.and_false]

theorem usdt_composes (hupper : p.Uppercase) (desired : String) :
    p.composes "USDT" desired = false := by
  have hbase : p.stableBase "USDT" = "USDT" := by
    rw [stableBase, hupper.usdt]
    decide
  rw [composes, hbase]
  simp

/-- A rate that is made of others is made of rates that are not. -/
theorem ends_composed (hupper : p.Uppercase) {selected desired : String}
    (hselected : p.toUpper selected = selected) (hdesired : p.toUpper desired = desired)
    (hcomposes : p.composes selected desired = true) (hslash : '/' ∉ desired.toList)
    {asks : String → String → Call F ExchangeRate}
    (hasks : ∀ d s w, '/' ∉ (p.toUpper d).toList →
      p.Ends lasting ask (p.Given lasting ask (p.toUpper s) (p.toUpper d)) (asks d s) w) :
    p.Ends lasting ask (fun x t => ∀ made, x = .ok (some made) →
      p.Grounded t.answered ask.begun selected desired (ask.begun - p.ttl - lasting) made.value)
      (p.composeStablecoinFiatRate asks selected desired) w := by
  have hfirst := hasks "USDT" selected w (by rw [hupper.usdt]; decide)
  refine ends_bind hfirst fun stableToUSDT t₁ ha _ => ?_
  have hsecond := hasks desired "USDT" t₁ (by rwa [hdesired])
  refine ends_bind hsecond fun usdtToFiat t hb hmoved => ?_
  rw [hselected, hupper.usdt] at ha
  rw [hdesired, hupper.usdt] at hb
  have hnone : p.Ends lasting ask (fun x t => ∀ made, x = .ok (some made) →
      p.Grounded t.answered ask.begun selected desired (ask.begun - p.ttl - lasting) made.value)
      (pure none : Call F (Option ExchangeRate)) t := by
    refine Meets.ret fun t' _ made hmade => ?_
    cases hmade
  cases stableToUSDT with
  | error e => exact hnone
  | ok a =>
    cases usdtToFiat with
    | error e => exact hnone
    | ok b =>
      dsimp only
      cases hvalue : p.composedValue a.value b.value with
      | none => exact hnone
      | some value =>
        have hdirect := (ha a rfl).direct_of_not_composes (composes_usdt hupper selected)
        have hdirect' := (hb b rfl).direct_of_not_composes (usdt_composes hupper desired)
        refine ends_query_bind fun env w' hmoved' _ _ _ => ⟨trivial, Meets.ret fun t' ht' => ?_⟩
        intro made hmade
        cases hmade
        have hlog : t.answered ⊆ t'.answered := fun _ hx => ht'.1.2 (hmoved'.2 hx)
        exact .composed a.value b.value value hcomposes
          (hdirect.mono (fun _ hx => hlog (hmoved.2 hx)) (Int.le_refl _))
          (hdirect'.mono hlog (Int.le_refl _)) hvalue

theorem given_lookup {w' : World F} (hstored : p.Stored lasting w')
    (hbegun : ask.begun ≤ w'.clock) {selected desired : String} (hslash : '/' ∉ desired.toList)
    {rate : ExchangeRate} (hlookup : p.lookup w' (cacheKey selected desired) = some rate) :
    p.Grounded w'.answered (ask.begun - p.ttl - lasting) selected desired
      (ask.begun - 2 * p.ttl - 2 * lasting) rate.value := by
  obtain ⟨e, hentry, hfresh⟩ := Option.bind_eq_some_iff.mp hlookup
  split at hfresh
  · cases hfresh
  · rename_i hage
    cases hfresh
    obtain ⟨selected', desired', hkept⟩ := hstored _ e hentry
    obtain ⟨rfl, rfl⟩ := cacheKey_inj hslash hkept.slash hkept.key
    exact hkept.grounded.mono (fun _ hx => hx) (by omega) (by omega)

theorem ends_rateBy (hupper : p.Uppercase) {asks : String → String → Call F ExchangeRate}
    (hasks : ∀ d s w, '/' ∉ (p.toUpper d).toList →
      p.Ends lasting ask (p.Given lasting ask (p.toUpper s) (p.toUpper d)) (asks d s) w)
    (desired selected : String) (hslash : '/' ∉ (p.toUpper desired).toList) :
    p.Ends lasting ask (p.Given lasting ask (p.toUpper selected) (p.toUpper desired))
      (p.rateBy asks desired selected) w := by
  have hselected := hupper.idem selected
  have hdesired := hupper.idem desired
  rw [rateBy]
  generalize p.toUpper selected = selected at hselected ⊢
  generalize p.toUpper desired = desired at hdesired hslash ⊢
  refine ends_query_bind fun env w' _ hstored hbegun hlasting => ⟨trivial, ?_⟩
  have hlookup : p.reply env w' (.get (cacheKey selected desired)) =
      p.lookup w' (cacheKey selected desired) := rfl
  rw [hlookup]
  cases hcached : p.lookup w' (cacheKey selected desired) with
  | some rate =>
    refine Meets.ret fun t ht r hr => ?_
    cases hr
    exact (given_lookup hstored hbegun hslash hcached).mono (fun _ hx => ht.1.2 hx)
      (Int.le_refl _) (Int.le_refl _)
  | none =>
    dsimp only
    split
    · rename_i hsame
      rw [Bool.and_eq_true, beq_iff_eq] at hsame
      exact ends_pegged hslash (.sameCoin hsame.1 hsame.2)
    · have hcomposed : p.Ends lasting ask (fun x t => ∀ made, x = .ok (some made) →
          p.Grounded t.answered ask.begun selected desired (ask.begun - p.ttl - lasting)
            made.value) (p.composed asks selected desired)
          (effect env w' (.get (cacheKey selected desired))) := by
        rw [composed]
        split
        · rename_i hcomposes
          exact ends_composed hupper hselected hdesired hcomposes hslash hasks
        · refine Meets.ret fun t _ made hmade => ?_
          cases hmade
      refine Meets.bind (hcomposed.mono ?_)
      intro x t hx
      cases x with
      | error e => exact Given.error e t
      | ok made =>
        cases made with
        | some rate => exact ends_keep hslash (hx rate rfl)
        | none =>
          dsimp only
          split
          · rename_i hfiat
            rw [Bool.and_eq_true] at hfiat
            exact ends_pegged hslash (.fiat hfiat.1 hfiat.2)
          · exact ends_marketRate hslash

theorem ends_rounds (hupper : p.Uppercase) (n : ℕ) (desired selected : String) (w : World F)
    (hslash : '/' ∉ (p.toUpper desired).toList) :
    p.Ends lasting ask (p.Given lasting ask (p.toUpper selected) (p.toUpper desired))
      (p.rounds n desired selected) w := by
  induction n generalizing desired selected w with
  | zero => exact Meets.fail fun t _ => Given.error _ t
  | succ n ih =>
    exact ends_rateBy hupper (fun d s w' hd => ih d s w' hd) desired selected hslash

end Program

/-- The recursion never needs more than its two rounds. -/
theorem rounds_enough (hupper : p.Uppercase) (n : ℕ) (desired selected : String) :
    p.rounds (n + 2) desired selected = p.getExchangeRate desired selected := by
  have hinner : ∀ asks asks' : String → String → Call F ExchangeRate, ∀ d s,
      p.composes (p.toUpper s) (p.toUpper d) = false → p.rateBy asks d s = p.rateBy asks' d s := by
    intro asks asks' d s hplain
    have hsame : p.composed asks (p.toUpper s) (p.toUpper d) =
        p.composed asks' (p.toUpper s) (p.toUpper d) := by
      rw [composed, composed, hplain]
      rfl
    rw [rateBy, rateBy, hsame]
  have hfirst : ∀ s, p.rounds (n + 1) "USDT" s = p.rounds 1 "USDT" s := by
    intro s
    refine hinner _ _ _ _ ?_
    rw [hupper.usdt]
    exact composes_usdt hupper _
  have hsecond : ∀ d, p.rounds (n + 1) d "USDT" = p.rounds 1 d "USDT" := by
    intro d
    refine hinner _ _ _ _ ?_
    rw [hupper.usdt]
    exact usdt_composes hupper _
  have hmade : p.composed (p.rounds (n + 1)) (p.toUpper selected) (p.toUpper desired) =
      p.composed (p.rounds 1) (p.toUpper selected) (p.toUpper desired) := by
    rw [composed, composed, composeStablecoinFiatRate, composeStablecoinFiatRate, hfirst, hsecond]
  rw [getExchangeRate, rounds, rounds, rateBy, rateBy, hmade]

/-- The rate a request has been given, if it has been given one. -/
def given (th : Thread Stmt (Reply F) (Env F) (World F) Empty (Except Err ExchangeRate) Ask) :
    Option ExchangeRate :=
  match th.prog with
  | .fail (.ok rate) => some rate
  | _ => none

theorem given_eq_some
    {th : Thread Stmt (Reply F) (Env F) (World F) Empty (Except Err ExchangeRate) Ask}
    {rate : ExchangeRate} (h : given th = some rate) : th.prog = .fail (.ok rate) := by
  rw [given] at h
  split at h
  · rename_i hprog
    cases h
    exact hprog
  · cases h

/-- Requests do not last longer than `lasting`, and ask for a rate in a ticker without a slash. -/
def Prompt (p : Provider F) (lasting : Int)
    (cfg : Config Stmt (Reply F) (Env F) (World F) Empty (Except Err ExchangeRate) Ask)
    (e : Event (Env F) ℕ Ask) : Prop :=
  (p.terms lasting).Admits p.feed cfg e ∧ Starts (fun ask => '/' ∉ (p.toUpper ask.desired).toList) e

instance (lasting : Int)
    (cfg : Config Stmt (Reply F) (Env F) (World F) Empty (Except Err ExchangeRate) Ask)
    (e : Event (Env F) ℕ Ask) : Decidable (p.Prompt lasting cfg e) :=
  inferInstanceAs (Decidable (_ ∧ _))

/-- Whatever requests run side by side, a rate is never without grounds, and its grounds are
no older than two times to live and the time that two requests last. -/
theorem rates_are_grounded (p : Provider F) (hupper : p.Uppercase) (lasting : Int) (w : World F)
    (hempty : ∀ key, w.entries key = none) (es : List (Event (Env F) ℕ Ask))
    (hrun : p.feed.Along (p.Prompt lasting) ⟨w, []⟩ es) :
    ∀ th ∈ (p.feed.run ⟨w, []⟩ es).threads, ∀ rate, given th = some rate →
      p.Grounded (p.feed.run ⟨w, []⟩ es).world.answered (th.label.begun - p.ttl - lasting)
        (p.toUpper th.label.selected) (p.toUpper th.label.desired)
        (th.label.begun - 2 * p.ttl - 2 * lasting) rate.value := by
  have hkept := Terms.kept_run (T := p.terms lasting) (Y := p.feed)
    (Q := fun ask x t => ∀ y, x = .error y →
      p.Given lasting ask (p.toUpper ask.selected) (p.toUpper ask.desired) y t)
    sound_terms (fun _ _ _ h => by cases h) ?_ ?_ hrun
  · intro th hth rate hrate
    exact hkept.outcome hth (given_eq_some hrate) _ rfl rate rfl
  · intro ask hslash w'
    exact (ends_rounds hupper 2 ask.desired ask.selected w' hslash).reported
  · intro key e he
    rw [hempty] at he
    cases he

end Provider

namespace OldQuotes

def texts : List (String × ℚ) :=
  [("1.0", 1), ("0.998", 998 / 1000), ("1.25", 125 / 100), ("0.8", 8 / 10),
    ("0.7984", 7984 / 10000)]

def provider : Provider ℚ where
  parseFloat text := texts.lookup text
  formatFloat x := ((texts.map Prod.swap).lookup x).getD ""
  formatTenths _ := ""
  const x := x
  add x y := x + y
  sub x y := x - y
  mul x y := x * y
  div x y := x / y
  neg x := -x
  lt x y := x < y
  le x y := x ≤ y
  eq x y := x = y
  toUpper text := text
  toLower text := if text = "EUR" then "eur" else "usdt"
  cacheTTLSeconds := 0

def second : Int := 10 ^ 9

/-- A rate is asked for, used 29 seconds later to make another, and that is given out after
another 30 seconds. -/
def events : List (Event (Env ℚ) ℕ Provider.Ask) :=
  .start ⟨"USDT", "USDC", 0⟩ :: List.replicate 5 (.exec 0 { binance := .ok "0.998" }) ++
    .move (29 * 10 ^ 9) :: .start ⟨"EUR", "USDC", 29 * second⟩ ::
      List.replicate 9 (.exec 1 { binance := .ok "1.25" }) ++
    [.move (30 * 10 ^ 9), .start ⟨"EUR", "USDC", 59 * second⟩, .exec 2 {}]

def empty : World ℚ := ⟨0, fun _ => none, []⟩

theorem old_quotes_grounded :
    ((provider.feed.run ⟨empty, []⟩ events).threads.map fun th =>
      (Provider.given th).map ExchangeRate.value) = [some "0.998", some "0.7984", some "0.7984"] ∧
    ∀ th ∈ (provider.feed.run ⟨empty, []⟩ events).threads, ∀ rate, Provider.given th = some rate →
      provider.Grounded (provider.feed.run ⟨empty, []⟩ events).world.answered
        (th.label.begun - provider.ttl - second) th.label.selected th.label.desired
        (th.label.begun - 2 * provider.ttl - 2 * second) rate.value :=
  ⟨by decide +kernel,
    Provider.rates_are_grounded provider ⟨rfl, fun _ => rfl⟩ second empty (fun _ => rfl) events
      (by decide +kernel)⟩

end OldQuotes

end PriceFeed

end CryptoLink
