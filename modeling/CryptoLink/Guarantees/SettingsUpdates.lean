import CryptoLink.Merchants.Settings

/-!
# When settings are lost

A call that returns has stored its properties, and they stay stored as long as
nobody writes back a copy of the document that was loaded before. This holds of
runs in which no document is written while another call for the merchant is
between its load and its write; two calls that load before either writes lose
the changes of the one that writes first.
-/

namespace CryptoLink

namespace MerchantAPI

open KeyedTables ReadCommitted StatementPrograms System

/-- No two calls for the merchant set one property. -/
def SetApart (m : Int) (threads : List SettingsThread) : Prop :=
  ((threads.map Thread.label).filter fun c => c.merchantID = m).Pairwise
    fun c d => c.change.properties.Disjoint d.change.properties

/-- The properties that no call for the merchant sets are as before. -/
def OthersKept (m : Int) (threads : List SettingsThread) (before after : MetaData) : Prop :=
  ∀ p, (∀ c ∈ threads.map Thread.label, c.merchantID = m → p ∉ c.change.properties) →
    after.find p = before.find p

/-- When all calls for a merchant have returned and no two of them set one
property, the document has all they set, and all else is as before. -/
def NothingLost (w : World) (cfg : SettingsConfig) : Prop :=
  ∀ m before, w.merchants.get m = some before → SetApart m cfg.threads →
    (∀ th ∈ cfg.threads, th.label.merchantID = m → th.prog = .ret ()) →
    ∃ after, cfg.world.merchants.get m = some after ∧
      (∀ th ∈ cfg.threads, th.label.merchantID = m → th.label.change.Stored after.settings) ∧
      OthersKept m cfg.threads before.settings after.settings

/-- Between its load and its write a call holds a copy of the document. -/
def holdsCopy : TenantCall Unit → Bool
  | .call (.stmt .pool (.getMerchantByID _)) _ => false
  | .call _ _ => true
  | _ => false

/-- The merchant whose document a call writes. -/
def settles : Cmd Stmt → Option Int
  | .stmt .pool (.updateMerchantSettings id _ _) => some id
  | _ => none

/-- No call is cut off, and no document is written while another call for the
merchant holds a copy of it. -/
def Undisturbed (s : Server) (cfg : SettingsConfig) : SettingsEvent → Prop
  | .crash _ => False
  | e => ∀ a ∈ s.settingsCalls.executing cfg e, ∀ id ∈ settles a.cmd,
      ∀ th ∈ cfg.threads.eraseIdx a.index, th.label.merchantID = id → holdsCopy th.prog = false

instance (s : Server) (cfg : SettingsConfig) (e : SettingsEvent) :
    Decidable (Undisturbed s cfg e) :=
  match e with
  | .crash _ => .isFalse id
  | .start _ => inferInstanceAs (Decidable (∀ a ∈ s.settingsCalls.executing cfg (.start _),
      ∀ id ∈ settles a.cmd, ∀ th ∈ cfg.threads.eraseIdx a.index, th.label.merchantID = id →
        holdsCopy th.prog = false))
  | .exec i env => inferInstanceAs (Decidable (∀ a ∈ s.settingsCalls.executing cfg (.exec i env),
      ∀ id ∈ settles a.cmd, ∀ th ∈ cfg.threads.eraseIdx a.index, th.label.merchantID = id →
        holdsCopy th.prog = false))
  | .move m => nomatch m

variable {s : Server}

def Server.loaded (s : Server) (c : SettingsCall) (entry : Except Err Merchant) :
    TenantCall Unit :=
  (succeed (orNotFound errMerchantNotFound entry)).bind fun mt => s.apply mt c.change

def chosen (mt : Merchant) (keys : List String) : TenantCall Unit :=
  upsertSettings mt [(propertyPaymentMethods, String.intercalate "," keys)]

def settle (mt : Merchant) (props : MetaData) (now : Int) : TenantCall Unit :=
  .call (.stmt .pool (.updateMerchantSettings mt.id now (mt.settings.merge props))) succeed

/-- Where a call stands that finds `doc` in the row, or holds a copy of it. -/
inductive Stage (doc : MetaData) (s : Server) (c : SettingsCall) : TenantCall Unit → Prop
  | loading : Stage doc s c (.call (.stmt .pool (.getMerchantByID c.merchantID)) (s.loaded c))
  | choosing (mt : Merchant) (tickers : List String) (hid : mt.id = c.merchantID)
      (hdoc : mt.settings = doc) (hc : c.change = .updateSupportedMethods tickers) :
      Stage doc s c (.call (.stmt .pool (.keysOf tickers.dedup)) (chosen mt))
  | timing (mt : Merchant) (props : MetaData) (hid : mt.id = c.merchantID)
      (hdoc : mt.settings = doc) (hc : c.change.Sets props) :
      Stage doc s c (.call (.stmt .pool .timeNow) (settle mt props))
  | settling (mt : Merchant) (props : MetaData) (now : Int) (hid : mt.id = c.merchantID)
      (hdoc : mt.settings = doc) (hc : c.change.Sets props) :
      Stage doc s c
        (.call (.stmt .pool (.updateMerchantSettings mt.id now (mt.settings.merge props))) succeed)
  | returned (hc : c.change.Stored doc) : Stage doc s c (.ret ())
  | failed (e : Err) : Stage doc s c (.fail e)

variable {c : SettingsCall} {doc : MetaData}

/-- A request that has loaded its merchant. -/
theorem stage_apply {mt : Merchant} (hid : mt.id = c.merchantID) (hdoc : mt.settings = doc) :
    Stage doc s c (s.apply mt c.change) := by
  cases hchange : c.change with
  | upsertSettings settings =>
    refine .timing mt settings.props hid hdoc ?_
    rw [hchange]
    exact .upsertSettings settings
  | updateSupportedMethods tickers =>
    simp only [Server.apply, Server.updateSupportedMethods]
    split
    · exact .failed _
    · split
      · exact .choosing mt tickers hid hdoc hchange
      · exact .failed _

theorem stage_loaded {entry : Except Err Merchant}
    (h : ∀ mt, entry = .ok mt → mt.id = c.merchantID ∧ mt.settings = doc) :
    Stage doc s c (s.loaded c entry) := by
  cases entry with
  | ok mt =>
    obtain ⟨hid, hdoc⟩ := h mt rfl
    exact stage_apply hid hdoc
  | error e =>
    simp only [Server.loaded, orNotFound]
    split <;> exact .failed _

/-- A call that holds no copy does not mind what another one has written. -/
theorem Stage.merge {prog : TenantCall Unit} (h : Stage doc s c prog)
    (hholds : holdsCopy prog = false) {other : Change} {props : MetaData}
    (hsets : other.Sets props) (hapart : c.change.properties.Disjoint other.properties) :
    Stage (doc.merge props) s c prog := by
  cases h with
  | loading => exact .loading
  | choosing => cases hholds
  | timing => cases hholds
  | settling => cases hholds
  | returned hc => exact .returned (hc.merge hsets hapart)
  | failed e => exact .failed e

variable {w : World} {st : Stmt} {k : Reply st → TenantCall Unit}

theorem autocommit_read (hreads : World.effect st = fun _ w => w) (env : Env) (w : World) :
    engine.autocommit st env w = w := by
  rw [autocommit_eq, hreads]
  exact ite_self w

theorem get_settled (id id' now : Int) (props : MetaData) (env : Env) (w : World) :
    (World.effect (.updateMerchantSettings id now props) env w).merchants.get id' =
      (w.merchants.get id').map fun m =>
        if m.id = id then World.settledMerchant now props m else m := by
  simp only [World.effect, Table.get_updateWhere, decide_eq_true_eq]

/-- The statements of a call leave the rows of other merchants alone. -/
theorem Stage.frame (h : Stage doc s c (.call (.stmt .pool st) k)) (env : Env) {m : Int}
    (hne : m ≠ c.merchantID) :
    (engine.autocommit st env w).merchants.get m = w.merchants.get m := by
  cases h with
  | loading => rw [autocommit_read rfl]
  | choosing => rw [autocommit_read rfl]
  | timing => rw [autocommit_read rfl]
  | settling mt props now hid hdoc hc =>
    rw [autocommit_eq]
    split
    · rfl
    · rw [get_settled]
      cases hget : w.merchants.get m with
      | none => rfl
      | some row =>
        have hkey : row.id = m := (Table.get_eq_some hget).2
        have hother : row.id ≠ mt.id := by omega
        rw [Option.map_some, if_neg hother]

theorem row_of_loaded {id : Int} {env : Env} {mt : Merchant}
    (h : engine.reply (.getMerchantByID id) env w = .ok mt) : w.merchants.get id = some mt := by
  have hfound : noRows (w.getMerchantByID id) = .ok mt := (answered_eq_ok h).2
  rw [World.getMerchantByID] at hfound
  cases hget : w.merchants.get id with
  | none =>
    rw [hget] at hfound
    cases hfound
  | some row =>
    rw [hget, Option.filter_some] at hfound
    split at hfound
    · cases hfound
      rfl
    · cases hfound

theorem perm_of_keysOf (tickers : List String) (env : Env) (w : World) :
    List.Perm (engine.reply (.keysOf tickers) env w) tickers := by
  show (if env.keys.isPerm tickers then env.keys else tickers).Perm _
  split
  · rename_i hperm
    exact List.isPerm_iff.mp hperm
  · exact List.Perm.refl _

theorem sets_chosen {tickers : List String}
    (hc : c.change = .updateSupportedMethods tickers) (env : Env) (w : World) :
    c.change.Sets [(propertyPaymentMethods,
      String.intercalate "," (engine.reply (.keysOf tickers.dedup) env w))] := by
  rw [hc]
  exact .updateSupportedMethods tickers _ (perm_of_keysOf _ env w)

/-- A call goes on from the document it finds, and writes the one it holds. -/
theorem Stage.step (h : Stage doc s c (.call (.stmt .pool st) k)) (env : Env) {row : Merchant}
    (hrow : w.merchants.get c.merchantID = some row) (hdoc : row.settings = doc) :
    ∃ row', (engine.autocommit st env w).merchants.get c.merchantID = some row' ∧
      Stage row'.settings s c (k (engine.reply st env w)) ∧
      (row' = row ∨ settles (.stmt .pool st) = some c.merchantID ∧
        ∃ props, c.change.Sets props ∧ row'.settings = doc.merge props) := by
  cases h with
  | loading =>
    refine ⟨row, ?_, ?_, .inl rfl⟩
    · rw [autocommit_read rfl]
      exact hrow
    · apply stage_loaded
      intro mt hmt
      have hmine : some row = some mt := hrow.symm.trans (row_of_loaded hmt)
      cases hmine
      exact ⟨(Table.get_eq_some hrow).2, rfl⟩
  | choosing mt tickers hid hcopy hc =>
    refine ⟨row, ?_, ?_, .inl rfl⟩
    · rw [autocommit_read rfl]
      exact hrow
    · exact .timing mt _ hid (hcopy.trans hdoc.symm) (sets_chosen hc env w)
  | timing mt props hid hcopy hc =>
    refine ⟨row, ?_, .settling mt props _ hid (hcopy.trans hdoc.symm) hc, .inl rfl⟩
    rw [autocommit_read rfl]
    exact hrow
  | settling mt props now hid hcopy hc =>
    by_cases hrefused : env.fate = .refused
    · refine ⟨row, ?_, ?_, .inl rfl⟩
      · rw [autocommit_eq, if_pos hrefused]
        exact hrow
      · have hreply : engine.reply (.updateMerchantSettings mt.id now (mt.settings.merge props))
            env w = .error (Err.of .database) := by
          show answered env.fate Err.database (.ok ()) = _
          rw [answered, hrefused]
          rfl
        rw [hreply]
        exact .failed _
    · refine ⟨World.settledMerchant now (mt.settings.merge props) row, ?_, ?_,
        .inr ⟨?_, props, hc, ?_⟩⟩
      · have hkey : row.id = mt.id := by
          rw [hid]
          exact (Table.get_eq_some hrow).2
        rw [autocommit_eq, if_neg hrefused, get_settled, hrow, Option.map_some, if_pos hkey]
      · show Stage (mt.settings.merge props) s c (succeed (answered env.fate .database (.ok ())))
        rw [answered]
        split
        · exact .returned hc.stored_merge
        · exact .failed _
      · rw [← hid]
        rfl
      · rw [← hcopy]
        rfl

/-- Whatever the tables hold, a call stays in one of its stages. -/
theorem Stage.next (h : Stage doc s c (.call (.stmt .pool st) k)) (env : Env) (w : World) :
    ∃ doc', Stage doc' s c (k (engine.reply st env w)) := by
  cases h with
  | loading =>
    cases hentry : engine.reply (.getMerchantByID c.merchantID) env w with
    | error e => exact ⟨doc, stage_loaded fun mt hmt => by cases hmt⟩
    | ok mt =>
      refine ⟨mt.settings, stage_loaded ?_⟩
      intro mt' hsame
      cases hsame
      exact ⟨(Table.get_eq_some (row_of_loaded hentry)).2, rfl⟩
  | choosing mt tickers hid hcopy hc =>
    exact ⟨doc, .timing mt _ hid hcopy (sets_chosen hc env w)⟩
  | timing mt props hid hcopy hc => exact ⟨doc, .settling mt props _ hid hcopy hc⟩
  | settling mt props now hid hcopy hc =>
    refine ⟨doc.merge props, ?_⟩
    show Stage _ s c (succeed (answered env.fate .database (.ok ())))
    rw [answered]
    split
    · exact .returned hc.stored_merge
    · exact .failed _

/-- All calls are in a stage, and those for a merchant whose properties are
apart are in step with its row. -/
structure InStep (s : Server) (w : World) (cfg : SettingsConfig) : Prop where
  staged : ∀ th ∈ cfg.threads, ∃ doc, Stage doc s th.label th.prog
  kept : ∀ m before, w.merchants.get m = some before → SetApart m cfg.threads →
    ∃ row, cfg.world.merchants.get m = some row ∧
      (∀ th ∈ cfg.threads, th.label.merchantID = m → Stage row.settings s th.label th.prog) ∧
      OthersKept m cfg.threads before.settings row.settings

theorem inStep_start (s : Server) (w : World) : InStep s w ⟨w, []⟩ := by
  refine ⟨fun th hth => (by cases hth), ?_⟩
  intro m before hbefore _
  exact ⟨before, hbefore, fun th hth => (by cases hth), fun _ _ => rfl⟩

variable {threads : List SettingsThread}

theorem SetApart.of_append {more : List SettingsThread} {m : Int}
    (h : SetApart m (threads ++ more)) : SetApart m threads := by
  rw [SetApart, List.map_append, List.filter_append] at h
  exact (List.pairwise_append.mp h).1

theorem InStep.start {cfg : SettingsConfig} (h : InStep s w cfg) (c : SettingsCall) :
    InStep s w ⟨cfg.world, cfg.threads ++ [⟨c, s.changeSettings c, .idle⟩]⟩ := by
  constructor
  · intro th hth
    rcases List.mem_append.mp hth with hold | hnew
    · exact h.staged th hold
    · rw [List.mem_singleton.mp hnew]
      exact ⟨[], .loading⟩
  · intro m before hbefore hapart
    obtain ⟨row, hrow, hstage, hothers⟩ := h.kept m before hbefore hapart.of_append
    refine ⟨row, hrow, ?_, ?_⟩
    · intro th hth hm
      rcases List.mem_append.mp hth with hold | hnew
      · exact hstage th hold hm
      · rw [List.mem_singleton.mp hnew]
        exact .loading
    · intro p hp
      apply hothers p
      intro c' hc'
      rw [List.map_append] at hp
      exact hp c' (List.mem_append_left _ hc')

theorem SetApart.beside {m : Int} (h : SetApart m threads) {i : ℕ} {th other : SettingsThread}
    (here : threads[i]? = some th) (hother : other ∈ threads.eraseIdx i)
    (hm : th.label.merchantID = m) (hm' : other.label.merchantID = m) :
    other.label.change.properties.Disjoint th.label.change.properties := by
  rw [SetApart, List.pairwise_filter] at h
  have hpair := beside_of_pairwise (fun a b hab hb ha => (hab ha hb).symm) h here hother
  exact (hpair (decide_eq_true hm) (decide_eq_true hm')).symm

/-- After a statement of a call for the merchant. -/
theorem InStep.own {cfg : SettingsConfig} {i : ℕ} {env : Env} {l : SettingsCall}
    (here : cfg.threads[i]? = some ⟨l, .call (.stmt .pool st) k, .idle⟩)
    (hbeside : ∀ id ∈ settles (.stmt .pool st), ∀ th ∈ cfg.threads.eraseIdx i,
      th.label.merchantID = id → holdsCopy th.prog = false)
    (hapart : SetApart l.merchantID cfg.threads) {before row : Merchant}
    (hrow : cfg.world.merchants.get l.merchantID = some row)
    (hstage : ∀ th ∈ cfg.threads, th.label.merchantID = l.merchantID →
      Stage row.settings s th.label th.prog)
    (hothers : OthersKept l.merchantID cfg.threads before.settings row.settings) :
    ∃ row', (engine.autocommit st env cfg.world).merchants.get l.merchantID = some row' ∧
      (∀ th ∈ cfg.threads.set i ⟨l, k (engine.reply st env cfg.world), .idle⟩,
        th.label.merchantID = l.merchantID → Stage row'.settings s th.label th.prog) ∧
      OthersKept l.merchantID cfg.threads before.settings row'.settings := by
  have hmem := List.mem_of_getElem? here
  obtain ⟨row', hrow', hnext, hchange⟩ := (hstage _ hmem rfl).step env hrow rfl
  refine ⟨row', hrow', ?_, ?_⟩
  · intro th hth hm
    rcases (mem_set_iff here th).mp hth with rfl | hother
    · exact hnext
    · have hold := hstage th (List.mem_of_mem_eraseIdx hother) hm
      rcases hchange with rfl | ⟨hsettles, props, hsets, hdoc⟩
      · exact hold
      · -- it holds no copy, so it has returned or is still to load
        have hfree := hbeside _ hsettles th hother hm
        rw [hdoc]
        exact hold.merge hfree hsets (hapart.beside here hother rfl hm)
  · intro p hp
    rcases hchange with rfl | ⟨-, props, hsets, hdoc⟩
    · exact hothers p hp
    · have hmine : p ∉ l.change.properties := hp l (List.mem_map_of_mem hmem) rfl
      rw [hdoc, hsets.find_merge hmine]
      exact hothers p hp

theorem InStep.stmt {cfg : SettingsConfig} (h : InStep s w cfg) {i : ℕ} {env : Env}
    {l : SettingsCall} (here : cfg.threads[i]? = some ⟨l, .call (.stmt .pool st) k, .idle⟩)
    (hbeside : ∀ id ∈ settles (.stmt .pool st), ∀ th ∈ cfg.threads.eraseIdx i,
      th.label.merchantID = id → holdsCopy th.prog = false) :
    InStep s w ⟨engine.autocommit st env cfg.world,
      cfg.threads.set i ⟨l, k (engine.reply st env cfg.world), .idle⟩⟩ := by
  obtain ⟨doc, hmine⟩ := h.staged _ (List.mem_of_getElem? here)
  constructor
  · intro th hth
    rcases (mem_set_iff here th).mp hth with rfl | hother
    · exact hmine.next env cfg.world
    · exact h.staged th (List.mem_of_mem_eraseIdx hother)
  · intro m before hbefore hapart
    simp only [SetApart, OthersKept, labels_set here] at hapart ⊢
    obtain ⟨row, hrow, hstage, hothers⟩ := h.kept m before hbefore hapart
    by_cases hm : l.merchantID = m
    · subst hm
      exact InStep.own here hbeside hapart hrow hstage hothers
    · refine ⟨row, ?_, ?_, hothers⟩
      · rw [hmine.frame env (Ne.symm hm)]
        exact hrow
      · intro th hth hm'
        rcases (mem_set_iff here th).mp hth with rfl | hother
        · exact absurd hm' hm
        · exact hstage th (List.mem_of_mem_eraseIdx hother) hm'

theorem InStep.step {cfg cfg' : SettingsConfig} {e : SettingsEvent} (h : InStep s w cfg)
    (hok : Undisturbed s cfg e) (hstep : PlainStep s.settingsCalls cfg e cfg') :
    InStep s w cfg' := by
  cases hstep with
  | nothing => exact h
  | start c => exact h.start c
  | crash i th here => exact hok.elim
  | move m => cases m
  | stmt i env l st k here executing => exact h.stmt here (hok _ executing)

theorem settingsCalls_singlesOnly (s : Server) : SinglesOnly s.settingsCalls := by
  intro c
  show Issues Cmd.isSingle (s.changeSettings c)
  have hsettle : ∀ mt props, Issues Cmd.isSingle (upsertSettings mt props) := by
    intro mt props
    refine ⟨⟨_, rfl⟩, fun now => ⟨⟨_, rfl⟩, fun done => ?_⟩⟩
    exact Issues.ofExcept done
  refine ⟨⟨_, rfl⟩, fun entry => ?_⟩
  show Issues Cmd.isSingle (s.loaded c entry)
  apply Issues.bind (Issues.ofExcept _)
  intro mt
  cases c.change with
  | upsertSettings settings => exact hsettle mt settings.props
  | updateSupportedMethods tickers =>
    simp only [Server.apply, Server.updateSupportedMethods]
    split
    · exact .fail _
    · split
      · exact ⟨⟨_, rfl⟩, fun keys => hsettle mt _⟩
      · exact .fail _

/-- No settings are lost in a run in which nobody writes a document of which
another call for the merchant holds a copy. -/
theorem settings_kept (s : Server) (w : World) (es : List SettingsEvent)
    (h : s.settingsCalls.Along (Undisturbed s) ⟨w, []⟩ es) :
    NothingLost w (s.settingsCalls.run ⟨w, []⟩ es) := by
  have hinv : InStep s w (s.settingsCalls.run ⟨w, []⟩ es) :=
    plain_invariant (settingsCalls_singlesOnly s) (fun _ _ _ hI hok hstep => hI.step hok hstep) h
      (inStep_start s w)
  intro m before hbefore hapart hover
  obtain ⟨after, hafter, hstage, hothers⟩ := hinv.kept m before hbefore hapart
  refine ⟨after, hafter, ?_, hothers⟩
  intro th hth hm
  have hdone := hstage th hth hm
  rw [hover th hth hm] at hdone
  cases hdone with
  | returned hc => exact hc

namespace TwoRequests

def server : Server where
  base58Decode _ := []
  base58Encode _ := ""
  doubleSha256 bytes := bytes
  hash160 bytes := bytes
  encodeToString _ := ""
  convertBits bytes := .ok bytes
  bech32Encode _ _ := .error (Err.new "not used")
  newKeyFromString _ := .error (Err.new "not used")
  derive _ _ := .error (Err.new "not used")
  ecPubKey _ := .error (Err.new "not used")
  mainNetAddress _ := .error (Err.new "not used")
  parseUUID := some
  isUUID _ := true
  parseRequestURI _ := true
  validURL _ := true
  toUpper text := text
  toLower text := text
  chains _ := none
  tickers := ["ETH", "TRON"]
  limitsEnforced := false
  adminMerchantID := 0

def merchant : Merchant := ⟨1, "m-1", 0, none, "shop", "https://shop.example", 7,
  [("webhook.secret", "old")]⟩

def tables : World := { World.empty with merchants := World.empty.merchants.insert merchant }

def secret : SettingsCall := ⟨1, .upsertSettings ⟨[("webhook.secret", "new")], by simp⟩⟩

def methods : SettingsCall := ⟨1, .updateSupportedMethods ["TRON", "ETH", "TRON"]⟩

/-- One request after the other. -/
def serial : List SettingsEvent :=
  [.start secret, .start methods, .exec 0 {}, .exec 0 {}, .exec 0 {}, .exec 1 {},
    .exec 1 { keys := ["ETH", "TRON"] }, .exec 1 {}, .exec 1 {}]

/-- Both load before either writes. -/
def crossed : List SettingsEvent :=
  [.start secret, .start methods, .exec 0 {}, .exec 1 {}, .exec 0 {}, .exec 0 {},
    .exec 1 { keys := ["ETH", "TRON"] }, .exec 1 {}, .exec 1 {}]

def returned : TenantCall Unit → Bool
  | .ret _ => true
  | _ => false

theorem eq_ret_of_returned {prog : TenantCall Unit} (h : returned prog = true) :
    prog = .ret () := by
  cases prog with
  | ret a => rfl
  | fail e => cases h
  | call c k => cases h

end TwoRequests

open TwoRequests in
theorem settings_kept_serial :
    (∀ th ∈ (server.settingsCalls.run ⟨tables, []⟩ serial).threads, returned th.prog = true) ∧
      NothingLost tables (server.settingsCalls.run ⟨tables, []⟩ serial) :=
  ⟨by decide +kernel, settings_kept server tables serial (by decide +kernel)⟩

open TwoRequests in
/-- Of two requests that load before either writes, the first to write is lost: the secret
that was replaced is back. -/
theorem first_writer_lost :
    ¬ ∀ (s : Server) (w : World) (es : List SettingsEvent), (∀ i, Event.crash i ∉ es) →
      NothingLost w (s.settingsCalls.run ⟨w, []⟩ es) := by
  intro h
  have hlost := h server tables crossed (by simp [crossed]) 1 merchant (by decide +kernel)
  have hover : ∀ th ∈ (server.settingsCalls.run ⟨tables, []⟩ crossed).threads,
      returned th.prog = true := by decide +kernel
  have hlabels : (server.settingsCalls.run ⟨tables, []⟩ crossed).threads.map Thread.label =
      [secret, methods] := rfl
  have hapart : SetApart 1 (server.settingsCalls.run ⟨tables, []⟩ crossed).threads := by
    rw [SetApart, hlabels]
    simp [secret, methods, Change.properties, propertyPaymentMethods]
  obtain ⟨after, hafter, hstored, -⟩ :=
    hlost hapart fun th hth _ => eq_ret_of_returned (hover th hth)
  have hdoc : ((server.settingsCalls.run ⟨tables, []⟩ crossed).world.merchants.get 1).map
      (fun m => m.settings.find "webhook.secret") = some (some "old") := by decide +kernel
  rw [hafter, Option.map_some, Option.some.injEq] at hdoc
  have hsecret : secret ∈ (server.settingsCalls.run ⟨tables, []⟩ crossed).threads.map
      Thread.label := by
    rw [hlabels]
    exact List.mem_cons_self
  obtain ⟨th, hth, hlabel⟩ := List.mem_map.mp hsecret
  obtain ⟨props, hsets, hfound⟩ := hstored th hth (by rw [hlabel]; rfl)
  rw [hlabel] at hsets
  cases hsets with
  | upsertSettings settings =>
    have hnew := hfound ("webhook.secret", "new") List.mem_cons_self
    rw [hdoc] at hnew
    revert hnew
    decide

end MerchantAPI

end CryptoLink
