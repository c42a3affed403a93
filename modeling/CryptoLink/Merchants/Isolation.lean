import CryptoLink.Merchants.Handlers
import CryptoLink.Merchants.Ownership
import CryptoLink.Repository.Replies

/-!
# Working for one merchant

What the services do for a merchant leaves the rows of another alone, and what
they give is not the other's. Rows of the other merchant are the same all the
time, so what is found of them is known beforehand.
-/

namespace CryptoLink

namespace MerchantAPI

open KeyedTables ReadCommitted StatementPrograms RankedListings System

/-- Everybody leaves the rows `h` of merchant `b` alone. -/
def sparing (t : Titles) (b : Int) (h : Holdings) : Terms Stmt Env World Request where
  holds := Untouched t b h
  moves _ _ := True
  admits _ c env _ := t.admits c env
  promise _ st _ := st.spares t b
  refl _ := trivial
  trans _ _ := trivial

/-- The program spares merchant `b`, whose rows are `h`, and gives values in `Q`. -/
def Spares {α : Type} (t : Titles) (b : Int) (h : Holdings) (Q : α → Prop) (p : TenantCall α) :
    Prop :=
  ∀ req, Yields ((sparing t b h).setting engine req) Q p

section

variable {t : Titles} {b : Int} {h : Holdings} {env : Env} {w : World}

section Found

variable {α : Type} {Q : α → Prop}

theorem gives_answered {x : Except Err α} (hx : Gives Q x) :
    Gives Q (answered env.fate .database x) :=
  fun a ha => hx a (answered_eq_ok ha).2

theorem gives_found {x : Option α} (hx : ∀ a, x = some a → Q a) :
    Gives Q (answered env.fate .database (noRows x)) :=
  gives_answered fun a ha => hx a (noRows_eq_ok ha)

theorem gives_fitting {fits : Bool} {a : α} (ha : Q a) :
    Gives Q (answered env.fate .database (fitting fits a)) := by
  refine gives_answered ?_
  rw [fitting]
  split
  · exact Gives.ok ha
  · exact Gives.error _

theorem gives_wrapErr {message : String} {x : Except Err α} (hx : Gives Q x) :
    Gives Q (wrapErr message x) :=
  hx.mapError _

theorem gives_orNotFound {c : Cause} {x : Except Err α} (hx : Gives Q x) :
    Gives Q (orNotFound c x) := by
  cases x with
  | error e => exact Gives.error _
  | ok a => exact hx

theorem gives_readPayment {Q : PaymentEntry → Prop} {p : PaymentEntry} (hp : Q p) :
    Gives Q (readPayment p) := by
  intro a ha
  rw [readPayment] at ha
  cases hread : entryToPayment p.toPaymentRow with
  | error e =>
    rw [hread] at ha
    cases ha
  | ok x =>
    rw [hread] at ha
    cases ha
    exact hp

theorem gives_readPayments {Q : List PaymentEntry → Prop} {ps : List PaymentEntry} (hps : Q ps) :
    Gives Q (readPayments ps) := by
  intro a ha
  rw [readPayments] at ha
  cases hread : ps.mapM readPayment with
  | error e =>
    rw [hread] at ha
    cases ha
  | ok x =>
    rw [hread] at ha
    cases ha
    exact hps

theorem gives_readLink {Q : PaymentLink → Prop} {l : PaymentLink} (hl : Q l) :
    Gives Q (readLink l) := by
  intro a ha
  rw [readLink] at ha
  cases hread : makeFiatCurrency l.currency with
  | error e =>
    rw [hread] at ha
    cases ha
  | ok x =>
    rw [hread] at ha
    cases ha
    exact hl

theorem gives_readLinks {Q : List PaymentLink → Prop} {ls : List PaymentLink} (hls : Q ls) :
    Gives Q (readLinks ls) := by
  intro a ha
  rw [readLinks] at ha
  cases hread : ls.mapM readLink with
  | error e =>
    rw [hread] at ha
    cases ha
  | ok x =>
    rw [hread] at ha
    cases ha
    exact hls

end Found

namespace Spares

variable {α β : Type} {Q : α → Prop} {P : β → Prop}

theorem pure {a : α} (ha : Q a) : Spares t b h Q (Pure.pure a : TenantCall α) :=
  fun _ => Yields.ret ha

theorem fail (e : Err) : Spares t b h Q (.fail e : TenantCall α) := fun _ => Yields.fail e

theorem succeed {x : Except Err α} (hx : Gives Q x) : Spares t b h Q (CryptoLink.succeed x) :=
  fun _ => Yields.ofExcept hx

theorem bind {p : TenantCall β} {f : β → TenantCall α} (hp : Spares t b h P p)
    (hf : ∀ a, P a → Spares t b h Q (f a)) : Spares t b h Q (p >>= f) :=
  fun req => (hp req).bind fun a ha => hf a ha req

theorem attempt {p : TenantCall α} (hp : Spares t b h Q p) :
    Spares t b h (Gives Q) p.attempt :=
  fun req => (hp req).attempt

theorem mapError {f : Err → Err} {p : TenantCall α} (hp : Spares t b h Q p) :
    Spares t b h Q (p.mapError f) :=
  fun req => (hp req).mapError

theorem mono {Q' : α → Prop} {p : TenantCall α} (hp : Spares t b h Q p) (hQ : ∀ a, Q a → Q' a) :
    Spares t b h Q' p :=
  fun req => (hp req).mono hQ

theorem query {st : Stmt} {Q : Reply st → Prop} (hst : st.spares t b)
    (hQ : ∀ env w, Untouched t b h w → Q (w.answer env st)) :
    Spares t b h Q (MerchantAPI.query st) := by
  refine fun req => Yields.ask ?_
  rintro w r w' ⟨hw, env, -, rfl, -⟩
  exact ⟨⟨st, rfl, hst⟩, hQ env w hw⟩

/-- A statement whose answer does not matter. -/
theorem run {st : Stmt} (hst : st.spares t b) :
    Spares t b h (fun _ => True) (MerchantAPI.query st) :=
  query hst fun _ _ _ => trivial

end Spares

/-- A merchant as the queries find it: not in the trash, and known if it is `b`. -/
structure Known (t : Titles) (b : Int) (h : Holdings) (m : Merchant) : Prop where
  titled : t.merchant m.uuid = m.id
  serial : m.id ≠ Transaction.merchantIDWildcard
  live : m.deletedAt = none
  own : m.id = b → m ∈ h.merchants

/-- The caller works for somebody else. -/
structure Stranger (t : Titles) (b : Int) (m : Merchant) : Prop where
  other : m.id ≠ b
  titled : t.merchant m.uuid = m.id
  serial : m.id ≠ Transaction.merchantIDWildcard

theorem Untouched.mem_merchants (hw : Untouched t b h w) {m : Merchant}
    (hm : m ∈ w.merchants.rows) (hb : m.id = b) : m ∈ h.merchants := by
  rw [← hw.rows]
  exact List.mem_filter.mpr ⟨hm, decide_eq_true (congrArg some hb)⟩

theorem Untouched.mem_tokens (hw : Untouched t b h w) {x : APIToken} (hx : x ∈ w.tokens.rows)
    (hb : x.owner = some b) : x ∈ h.tokens := by
  rw [← hw.rows]
  exact List.mem_filter.mpr ⟨hx, decide_eq_true hb⟩

theorem Untouched.mem_xpubWallets (hw : Untouched t b h w) {x : XpubWallet}
    (hx : x ∈ w.xpubWallets.rows) (hb : x.merchantID = b) : x ∈ h.xpubWallets := by
  rw [← hw.rows]
  exact List.mem_filter.mpr ⟨hx, decide_eq_true (congrArg some hb)⟩

theorem Untouched.known (hw : Untouched t b h w) {m : Merchant} (hm : m ∈ w.merchants.rows)
    (hlive : m.deletedAt.isNone = true) : Known t b h m where
  titled := hw.titled.merchants m hm
  serial := hw.titled.serials m hm
  live := Option.isNone_iff_eq_none.mp hlive
  own := hw.mem_merchants hm

theorem spares_getMerchantByID (id : Int) :
    Spares t b h (fun m => Known t b h m ∧ m.id = id) (getMerchantByID id) := by
  refine Spares.bind (P := Gives fun m => Known t b h m ∧ m.id = id)
    (Spares.query trivial fun env w hw => gives_found fun m hm => ?_)
    fun _ hx => Spares.succeed (gives_orNotFound hx)
  obtain ⟨hget, hlive⟩ := Option.filter_eq_some_iff.mp hm
  obtain ⟨hmem, hid⟩ := Table.get_eq_some hget
  exact ⟨hw.known hmem hlive, hid⟩

theorem spares_getByUUIDAndCreatorID (uuid : String) (creatorID : Int) :
    Spares t b h (fun m => Known t b h m ∧ m.creatorID = creatorID)
      (getByUUIDAndCreatorID uuid creatorID) := by
  refine Spares.bind (P := Gives fun m => Known t b h m ∧ m.creatorID = creatorID)
    (Spares.query trivial fun env w hw => gives_found fun m hm => ?_)
    fun _ hx => Spares.succeed (gives_orNotFound hx)
  have hfound := List.find?_some hm
  rw [Bool.and_eq_true, Bool.and_eq_true, decide_eq_true_iff, decide_eq_true_iff] at hfound
  exact ⟨hw.known (List.mem_of_find?_eq_some hm) hfound.2, hfound.1.2⟩

theorem spares_updateMerchant {id : Int} (hid : id ≠ b) (name website : String) :
    Spares t b h (fun _ => True) (updateMerchant id name website) := by
  refine Spares.bind (spares_getMerchantByID id) fun _ _ => ?_
  refine Spares.bind (Spares.run trivial) fun now _ => ?_
  refine Spares.bind (Spares.run hid) fun _ _ => ?_
  exact Spares.succeed fun _ _ => trivial

theorem spares_upsertSettings {m : Merchant} (hm : m.id ≠ b) (settings : MetaData) :
    Spares t b h (fun _ => True) (upsertSettings m settings) := by
  refine Spares.bind (Spares.run trivial) fun now _ => ?_
  refine Spares.bind (Spares.run hm) fun _ _ => ?_
  exact Spares.succeed fun _ _ => trivial

theorem spares_updateSupportedMethods (s : Server) {m : Merchant} (hm : m.id ≠ b)
    (tickers : List String) :
    Spares t b h (fun _ => True) (s.updateSupportedMethods m tickers) := by
  rw [Server.updateSupportedMethods]
  split
  · exact Spares.fail _
  · split
    · refine Spares.bind (Spares.run trivial) fun keys _ => ?_
      exact spares_upsertSettings hm _
    · exact Spares.fail _

theorem spares_deleteByUUID {uuid : String} (huuid : t.merchant uuid ≠ b) :
    Spares t b h (fun _ => True) (deleteByUUID uuid) :=
  Spares.bind (Spares.run huuid) fun _ _ => Spares.succeed fun _ _ => trivial

/-- A token as the queries find it. -/
structure Named (t : Titles) (b : Int) (h : Holdings) (x : APIToken) : Prop where
  titled : t.token x.id = x.owner
  user : x.entityType = .user → t.user x.token = x.entityID
  own : x.owner = some b → x ∈ h.tokens

theorem Untouched.named (hw : Untouched t b h w) {x : APIToken} (hx : x ∈ w.tokens.rows) :
    Named t b h x where
  titled := hw.titled.tokens x hx
  user := hw.titled.users x hx
  own := hw.mem_tokens hx

theorem spares_getToken (tokenType : TokenType) (token : String) :
    Spares t b h (fun x => Named t b h x ∧ x.entityType = tokenType ∧ x.token = token)
      (getToken tokenType token) := by
  refine Spares.bind
    (P := Gives fun x => Named t b h x ∧ x.entityType = tokenType ∧ x.token = token)
    (Spares.query trivial fun env w hw => gives_found fun x hx => ?_)
    fun _ hx => Spares.succeed hx
  have hfound := List.find?_some hx
  rw [Bool.and_eq_true, decide_eq_true_iff, decide_eq_true_iff] at hfound
  exact ⟨hw.named (List.mem_of_find?_eq_some hx), hfound⟩

theorem spares_getMerchantTokenByUUID (merchantID : Int) (uuid : String) :
    Spares t b h (fun x => t.token x.id = some merchantID)
      (getMerchantTokenByUUID merchantID uuid) := by
  have hfound : Spares t b h (Named t b h) (getTokenByUUID uuid) := by
    refine Spares.bind (P := Gives (Named t b h))
      (Spares.query trivial fun env w hw => gives_found fun x hx => ?_)
      fun _ hx => Spares.succeed (gives_orNotFound hx)
    exact hw.named (List.mem_of_find?_eq_some hx)
  refine Spares.bind hfound fun x hx => ?_
  split
  · exact Spares.fail _
  · rename_i hown
    rw [not_or, not_not, not_not] at hown
    refine Spares.pure ?_
    rw [hx.titled, APIToken.owner, if_pos hown.1, hown.2]

theorem spares_createMerchantToken {merchantID : Int} (hm : merchantID ≠ b) (name : String) :
    Spares t b h (fun x => x.owner ≠ some b) (createMerchantToken merchantID name) := by
  refine Spares.bind (Spares.run trivial) fun token _ => ?_
  refine Spares.bind (Spares.run trivial) fun now _ => ?_
  refine Spares.bind (Spares.run trivial) fun uuid _ => ?_
  refine Spares.bind (P := Gives fun x : APIToken => x.owner ≠ some b)
    (Spares.query ⟨rfl, hm⟩ fun env w hw => gives_fitting ?_) fun _ hx => Spares.succeed hx
  exact fun hb => hm (Option.some.inj hb)

theorem spares_listByEntityType {merchantID : Int} (hm : merchantID ≠ b) :
    Spares t b h (fun l => ∀ x ∈ l, x.owner ≠ some b)
      (listByEntityType .merchant merchantID) := by
  refine Spares.bind (P := Gives fun l : List APIToken => ∀ x ∈ l, x.owner ≠ some b)
    (Spares.query trivial fun env w hw => gives_answered (Gives.ok fun x hx => ?_))
    fun _ hx => Spares.succeed hx
  have hlisted := (List.mem_filter.mp (mem_ranked.mp hx)).2
  rw [Bool.and_eq_true, decide_eq_true_iff, decide_eq_true_iff] at hlisted
  rw [APIToken.owner, if_pos hlisted.2, hlisted.1]
  exact fun hb => hm (Option.some.inj hb)

theorem spares_deleteToken {id : Int} (hid : t.token id ≠ some b) :
    Spares t b h (fun _ => True) (deleteToken id) :=
  Spares.bind (Spares.run hid) fun _ _ => Spares.succeed fun _ _ => trivial

theorem Untouched.titled_wallet (hw : Untouched t b h w) {x : XpubWallet}
    (hx : x ∈ w.xpubWallets.rows) : t.wallet x.id = x.merchantID :=
  hw.titled.wallets x hx

theorem spares_getXpubWalletByUUID (uuid : String) :
    Spares t b h (fun x => x.uuid = uuid ∧ t.wallet x.id = x.merchantID ∧
      (x.merchantID = b → x ∈ h.xpubWallets)) (getXpubWalletByUUID uuid) := by
  refine Spares.bind (P := Gives fun x : XpubWallet => x.uuid = uuid ∧
      t.wallet x.id = x.merchantID ∧ (x.merchantID = b → x ∈ h.xpubWallets))
    (Spares.query trivial fun env w hw => gives_found fun x hx => ?_)
    fun _ hx => Spares.succeed (gives_orNotFound hx)
  have hmem := List.mem_of_find?_eq_some hx
  have hfound := List.find?_some hx
  exact ⟨of_decide_eq_true hfound, hw.titled_wallet hmem, hw.mem_xpubWallets hmem⟩

theorem spares_listXpubWallets {merchantID : Int} (hm : merchantID ≠ b) :
    Spares t b h (fun l => ∀ x ∈ l, x.owner ≠ some b) (listXpubWallets merchantID) := by
  refine Spares.bind (P := Gives fun l : List XpubWallet => ∀ x ∈ l, x.owner ≠ some b)
    (Spares.query trivial fun env w hw => gives_answered (Gives.ok fun x hx => ?_))
    fun _ hx => Spares.succeed hx
  have hlisted := (List.mem_filter.mp (mem_ranked.mp hx)).2
  rw [Bool.and_eq_true, decide_eq_true_iff] at hlisted
  exact fun hb => hm (hlisted.1 ▸ Option.some.inj hb)

theorem spares_createXpubWallet (s : Server) {merchantID : Int} (hm : merchantID ≠ b)
    (blockchain xpubKey derivationPath : String) :
    Spares t b h (fun x => x.owner ≠ some b)
      (s.createXpubWallet merchantID blockchain xpubKey derivationPath) := by
  have hcreate : ∀ xpub path, Spares t b h (fun x => x.owner ≠ some b)
      (KeyLibraries.createXpubWallet.create merchantID blockchain xpub path) := by
    intro xpub path
    refine Spares.bind (Spares.run trivial) fun now _ => ?_
    refine Spares.bind (Spares.run trivial) fun uuid _ => ?_
    refine Spares.bind (P := Gives fun x : XpubWallet => x.owner ≠ some b)
      (Spares.query hm fun env w hw => gives_fitting ?_) fun _ hx => Spares.succeed hx
    exact fun hb => hm (Option.some.inj hb)
  refine Spares.bind (Spares.succeed (Q := fun _ => True) fun _ _ => trivial) ?_
  rintro ⟨convertedKey, autoPath⟩ -
  dsimp only
  split
  · exact Spares.fail _
  · refine Spares.bind (Spares.run trivial) fun existing _ => ?_
    split
    · split
      · exact Spares.fail _
      · exact hcreate _ _
    · split
      · exact hcreate _ _
      · exact Spares.fail _

theorem gives_createDerivedAddress {p : CreateDerivedAddressParams} (hp : p.merchantID ≠ b) :
    Gives (fun a : DerivedAddress => a.owner ≠ some b)
      (answered env.fate .database (w.createDerivedAddress env.id p)) := by
  refine gives_answered ?_
  rw [World.createDerivedAddress]
  split
  · exact Gives.error _
  · rw [fitting]
    split
    · exact Gives.ok fun hb => hp (Option.some.inj hb)
    · exact Gives.error _

theorem spares_deriveFrom (s : KeyLibraries) {x : XpubWallet} (hx : x.merchantID ≠ b)
    (htitled : t.wallet x.id = x.merchantID) (now nextIndex : Int) (attempts : ℕ) :
    Spares t b h (fun a => a.owner ≠ some b) (s.deriveFrom x now nextIndex attempts) := by
  have hwallet : t.wallet x.id ≠ b := by
    rw [htitled]
    exact hx
  induction attempts generalizing nextIndex with
  | zero => exact Spares.fail _
  | succ attempts ih =>
    refine Spares.bind (Spares.succeed (Q := fun _ => True) fun _ _ => trivial) ?_
    rintro ⟨address, pubKey⟩ -
    refine Spares.bind (Spares.run trivial) fun uuid _ => ?_
    refine Spares.bind (P := Gives fun a : DerivedAddress => a.owner ≠ some b)
      (Spares.query ⟨hx, htitled⟩ fun env w hw => ?_) fun created hcreated => ?_
    · exact gives_createDerivedAddress hx
    · cases created with
      | error e =>
        dsimp only
        split
        · exact ih (nextIndex + 1)
        · exact Spares.fail e
      | ok entry =>
        refine Spares.bind (Spares.run hwallet) fun _ _ => ?_
        exact Spares.pure (hcreated entry rfl)

theorem spares_deriveAddress (s : KeyLibraries) {walletID : Int} (hwallet : t.wallet walletID ≠ b) :
    Spares t b h (fun a => a.owner ≠ some b) (s.deriveAddress walletID) := by
  refine Spares.bind
    (P := Gives fun x : XpubWallet => x.merchantID ≠ b ∧ t.wallet x.id = x.merchantID)
    (Spares.query trivial fun env w hw => gives_found fun x hx => ?_) fun found hfound => ?_
  · obtain ⟨hmem, hid⟩ := Table.get_eq_some hx
    have htitled := hw.titled_wallet hmem
    exact ⟨fun hb => hwallet (by rw [← hid, htitled, hb]), htitled⟩
  · refine Spares.bind (Spares.succeed (gives_orNotFound hfound)) ?_
    rintro x ⟨hother, htitled⟩
    refine Spares.bind (Spares.run trivial) fun shared _ => ?_
    refine Spares.bind (Spares.succeed (Q := fun _ => True) fun _ _ => trivial) fun index _ => ?_
    refine Spares.bind (Spares.run trivial) fun now _ => ?_
    exact spares_deriveFrom s hother htitled _ _ _

theorem spares_getNextUnusedAddress (s : KeyLibraries) {walletID : Int}
    (hwallet : t.wallet walletID ≠ b) :
    Spares t b h (fun a => a.owner ≠ some b) (s.getNextUnusedAddress walletID) := by
  refine Spares.bind (P := Gives fun a : DerivedAddress => a.owner ≠ some b)
    (Spares.query trivial fun env w hw => gives_found fun a ha => ?_) fun entry hentry => ?_
  · have hmem := List.mem_reverse.mp (List.mem_of_head? ha)
    obtain ⟨hrow, hfree⟩ := List.mem_filter.mp (mem_ranked.mp hmem)
    rw [Bool.and_eq_true, decide_eq_true_iff] at hfree
    have htitled := hw.titled.addresses a hrow
    rw [hfree.1] at htitled
    exact fun hb => hwallet (htitled.trans (Option.some.inj hb))
  · cases entry with
    | ok a => exact Spares.pure (hentry a rfl)
    | error e =>
      dsimp only
      split
      · exact spares_deriveAddress s hwallet
      · exact Spares.fail e

theorem spares_listDerivedAddresses {walletID : Int} (hwallet : t.wallet walletID ≠ b) :
    Spares t b h (fun l => ∀ a ∈ l, a.owner ≠ some b) (listDerivedAddresses walletID) := by
  refine Spares.bind (P := Gives fun l : List DerivedAddress => ∀ a ∈ l, a.owner ≠ some b)
    (Spares.query trivial fun env w hw => gives_answered (Gives.ok fun a ha => ?_))
    fun _ hx => Spares.succeed hx
  obtain ⟨hrow, hlisted⟩ := List.mem_filter.mp (mem_ranked.mp (List.mem_reverse.mp ha))
  have htitled := hw.titled.addresses a hrow
  rw [of_decide_eq_true hlisted] at htitled
  exact fun hb => hwallet (htitled.trans (Option.some.inj hb))

theorem spares_deactivateWallet (uuid : String) {merchantID : Int} (hm : merchantID ≠ b) :
    Spares t b h (fun _ => True) (deactivateWallet uuid merchantID) := by
  refine Spares.bind (spares_getXpubWalletByUUID uuid) ?_
  rintro entry ⟨-, htitled, -⟩
  split
  · exact Spares.fail _
  · rename_i hown
    rw [not_not] at hown
    have hwallet : t.wallet entry.id ≠ b := by
      rw [htitled, hown]
      exact hm
    refine Spares.bind (Spares.run hwallet) fun _ _ => ?_
    refine Spares.bind (Spares.succeed (Q := fun _ => True) fun _ _ => trivial) fun _ _ => ?_
    refine Spares.bind (Spares.run hwallet) fun _ _ => ?_
    exact Spares.succeed fun _ _ => trivial

theorem spares_getCollector (s : Server) {merchantID : Int} (hm : merchantID ≠ b)
    (blockchain : String) :
    Spares t b h (fun c => c.owner ≠ some b) (s.getCollector merchantID blockchain) := by
  refine Spares.bind (P := Gives fun c : Collector => c.owner ≠ some b)
    (Spares.query trivial fun env w hw => gives_found fun c hc => ?_)
    fun _ hx => Spares.succeed (gives_orNotFound hx)
  have hfound := List.find?_some hc
  rw [Bool.and_eq_true, Bool.and_eq_true, decide_eq_true_iff] at hfound
  exact fun hb => hm (hfound.1.1 ▸ Option.some.inj hb)

theorem spares_registerCollector (s : Server) {merchantID : Int} (hm : merchantID ≠ b)
    (blockchain : String) (chainID : Int) (contractAddress ownerAddress factoryAddress : String) :
    Spares t b h (fun c => c.owner ≠ some b)
      (s.registerCollector merchantID blockchain chainID contractAddress ownerAddress
        factoryAddress) := by
  refine Spares.bind (Spares.run trivial) fun now _ => ?_
  refine Spares.bind (Spares.run trivial) fun uuid _ => ?_
  refine Spares.bind (Spares.run hm) fun _ _ => ?_
  refine Spares.bind (Spares.succeed (Q := fun _ => True) fun _ _ => trivial) fun _ _ => ?_
  exact spares_getCollector s hm _

theorem spares_deleteCollector (s : Server) {merchantID : Int} (hm : merchantID ≠ b)
    (blockchain : String) :
    Spares t b h (fun _ => True) (s.deleteCollector merchantID blockchain) := by
  refine Spares.bind (Spares.run trivial) fun now _ => ?_
  refine Spares.bind (Spares.run hm) fun _ _ => ?_
  refine Spares.bind (Spares.succeed (Q := fun _ => True) fun _ _ => trivial) fun rows _ => ?_
  split
  · exact Spares.fail _
  · exact Spares.pure trivial

theorem spares_listCollectors {merchantID : Int} (hm : merchantID ≠ b) :
    Spares t b h (fun l => ∀ c ∈ l, c.owner ≠ some b) (listCollectors merchantID) := by
  refine Spares.bind (P := Gives fun l : List Collector => ∀ c ∈ l, c.owner ≠ some b)
    (Spares.query trivial fun env w hw => gives_answered (Gives.ok fun c hc => ?_))
    fun _ hx => Spares.succeed (gives_wrapErr hx)
  have hlisted := (List.mem_filter.mp (mem_ranked.mp (List.mem_reverse.mp hc))).2
  rw [Bool.and_eq_true, decide_eq_true_iff] at hlisted
  exact fun hb => hm (hlisted.1 ▸ Option.some.inj hb)

theorem owner_ne {m : Int} (hm : m ≠ b) {m' : Int} (h : m' = m) : some m' ≠ some b :=
  fun hb => hm (h ▸ Option.some.inj hb)

theorem spares_getPaymentByID {merchantID : Int} (hm : merchantID ≠ b)
    (hserial : merchantID ≠ Transaction.merchantIDWildcard) (id : Int) :
    Spares t b h (fun p => p.owner ≠ some b) (getPaymentByID merchantID id) := by
  refine Spares.bind (P := Gives fun p : PaymentEntry => p.owner ≠ some b)
    (Spares.query trivial fun env w hw => gives_found fun p hp => ?_)
    fun _ hx => Spares.succeed ((gives_orNotFound hx).bind fun p hp => gives_readPayment hp)
  obtain ⟨-, hfilter⟩ := Option.filter_eq_some_iff.mp hp
  rw [decide_eq_true hserial, Bool.not_true, Bool.false_or, decide_eq_true_iff] at hfilter
  exact owner_ne hm hfilter

theorem spares_getByMerchantOrderID {merchantID : Int} (hm : merchantID ≠ b) (orderUUID : String) :
    Spares t b h (fun p => p.owner ≠ some b) (getByMerchantOrderID merchantID orderUUID) := by
  refine Spares.bind (P := Gives fun p : PaymentEntry => p.owner ≠ some b)
    (Spares.query trivial fun env w hw => gives_found fun p hp => ?_)
    fun _ hx => Spares.succeed ((gives_orNotFound hx).bind fun p hp => gives_readPayment hp)
  have hfound := List.find?_some hp
  rw [Bool.and_eq_true, decide_eq_true_iff] at hfound
  exact owner_ne hm hfound.1

theorem spares_cursorPayment (s : Server) {merchantID : Int} (hm : merchantID ≠ b)
    (cursor : String) :
    Spares t b h (fun _ => True) (s.cursorPayment merchantID cursor) := by
  rw [Server.cursorPayment]
  split
  · exact Spares.pure trivial
  · split
    · exact Spares.fail _
    · refine Spares.bind (spares_getByMerchantOrderID hm _).mapError fun _ _ => ?_
      exact Spares.pure trivial

theorem owner_of_listed {merchantID : Int} (hm : merchantID ≠ b) {types : List Payment.Kind}
    {q : PaymentEntry → Bool} {p : PaymentEntry}
    (hp : p ∈ w.payments.rows.filter fun p => World.isListed types merchantID p && q p) :
    p.owner ≠ some b := by
  have hlisted := (List.mem_filter.mp hp).2
  rw [World.isListed, Bool.and_eq_true, Bool.and_eq_true, decide_eq_true_iff] at hlisted
  exact owner_ne hm hlisted.1.1

theorem spares_list (s : Server) {merchantID : Int} (hm : merchantID ≠ b) (opts : ListOptions) :
    Spares t b h (fun r => ∀ p ∈ r.1, p.owner ≠ some b) (s.list merchantID opts) := by
  have hrest : ∀ (limit : ℕ) (results : Except Err (List PaymentEntry)),
      Gives (fun l => ∀ p ∈ l, p.owner ≠ some b) results →
      Spares t b h (fun r => ∀ p ∈ r.1, p.owner ≠ some b) (do
        let entries ← succeed (wrapErr "unable to paginate payments" results)
        let payments ← succeed (wrapErr "unable to map payments" (readPayments entries))
        pure (payments.take limit, nextCursor PaymentEntry.merchantOrderUUID limit payments)) := by
    intro limit results hresults
    refine Spares.bind (Spares.succeed (gives_wrapErr hresults)) fun entries hentries => ?_
    refine Spares.bind (Spares.succeed (gives_wrapErr
      (gives_readPayments (Q := fun l => ∀ p ∈ l, p.owner ≠ some b) hentries)))
        fun payments hp => ?_
    exact Spares.pure fun p hmem => hp p (List.mem_of_mem_take hmem)
  rw [Server.list]
  dsimp only
  generalize (if opts.limit = 0 then limitDefault else opts.limit) = limit
  split
  · exact Spares.fail _
  · refine Spares.bind (spares_cursorPayment s hm _) fun cursor _ => ?_
    split
    · refine Spares.bind (Spares.query trivial fun env w hw =>
        gives_answered (Gives.ok fun p hp => ?_)) (hrest limit)
      exact owner_of_listed hm (mem_ranked.mp (List.mem_of_mem_take hp))
    · refine Spares.bind (Spares.query trivial fun env w hw =>
        gives_answered (Gives.ok fun p hp => ?_)) (hrest limit)
      exact owner_of_listed hm (mem_ranked.mp (List.mem_reverse.mp (List.mem_of_mem_take hp)))

theorem spares_eagerLoadRelations {merchantID : Int} (hm : merchantID ≠ b)
    {payments : List PaymentEntry} (hpayments : ∀ p ∈ payments, p.owner ≠ some b) :
    Spares t b h (fun l => ∀ p ∈ l, ∀ x ∈ p.rendered, x.owner ≠ some b)
      (eagerLoadRelations merchantID payments) := by
  have hcustomers : Spares t b h (fun l => ∀ p ∈ l, ∀ x ∈ p.rendered, x.owner ≠ some b)
      (eagerLoadCustomers merchantID payments) := by
    refine Spares.bind (P := Gives fun l : List Customer => ∀ c ∈ l, c.owner ≠ some b)
      (Spares.query trivial fun env w hw => gives_answered (Gives.ok fun c hc => ?_))
      fun found hfound => ?_
    · have hlisted := (List.mem_filter.mp hc).2
      rw [Bool.and_eq_true, decide_eq_true_iff] at hlisted
      exact owner_ne hm hlisted.1
    · refine Spares.bind (Spares.succeed hfound) fun customers hcustomers => ?_
      refine Spares.pure fun r hr x hx => ?_
      obtain ⟨p, hp, rfl⟩ := List.mem_map.mp hr
      rcases List.mem_cons.mp hx with rfl | hx
      · exact hpayments p hp
      · obtain ⟨c, hc, rfl⟩ := Option.map_eq_some_iff.mp (Option.mem_toList.mp hx)
        obtain ⟨id, -, hfind⟩ := Option.bind_eq_some_iff.mp hc
        exact hcustomers c (List.mem_of_find?_eq_some hfind)
  refine Spares.bind (Spares.run trivial) fun txs _ => ?_
  refine Spares.bind (Spares.succeed (Q := fun _ => True) fun _ _ => trivial) fun _ _ => ?_
  refine Spares.bind hcustomers.mapError fun loaded hloaded => ?_
  refine Spares.bind (Spares.run trivial) fun balances _ => ?_
  refine Spares.bind (Spares.succeed (Q := fun _ => True) fun _ _ => trivial) fun _ _ => ?_
  exact Spares.pure hloaded

theorem spares_listWithRelations (s : Server) {merchantID : Int} (hm : merchantID ≠ b)
    (opts : ListOptions) :
    Spares t b h (fun r => ∀ p ∈ r.1, ∀ x ∈ p.rendered, x.owner ≠ some b)
      (s.listWithRelations merchantID opts) := by
  refine Spares.bind (spares_list s hm opts).mapError ?_
  rintro ⟨payments, cursor⟩ hpayments
  refine Spares.bind (spares_eagerLoadRelations hm hpayments) fun loaded hloaded => ?_
  exact Spares.pure hloaded

theorem spares_getByMerchantOrderIDWithRelations {merchantID : Int} (hm : merchantID ≠ b)
    (orderUUID : String) :
    Spares t b h (fun l => ∀ p ∈ l, ∀ x ∈ p.rendered, x.owner ≠ some b)
      (getByMerchantOrderIDWithRelations merchantID orderUUID) := by
  refine Spares.bind (spares_getByMerchantOrderID hm orderUUID) fun pt hpt => ?_
  refine spares_eagerLoadRelations hm fun p hp => ?_
  rw [List.mem_singleton.mp hp]
  exact hpt

theorem spares_createPayment (s : Server) {merchantID : Int} (hm : merchantID ≠ b)
    (props : CreatePaymentProps) :
    Spares t b h (fun p => p.owner ≠ some b) (s.createPayment merchantID props) := by
  refine Spares.bind (Spares.succeed (Q := fun _ => True) fun _ _ => trivial) fun _ _ => ?_
  refine Spares.bind (spares_getMerchantByID merchantID) fun mt _ => ?_
  refine Spares.bind (spares_getByMerchantOrderID hm _).attempt fun known _ => ?_
  cases known with
  | ok p => exact Spares.fail _
  | error e =>
    refine Spares.bind (Spares.run trivial) fun now _ => ?_
    refine Spares.bind (Spares.run trivial) fun publicID _ => ?_
    refine Spares.bind (P := Gives fun p : PaymentEntry => p.owner ≠ some b)
      (Spares.query hm fun env w hw => gives_fitting fun hb => hm (Option.some.inj hb))
      fun created hcreated => ?_
    exact Spares.succeed (hcreated.bind fun p hp => gives_readPayment hp)

theorem spares_updatePayment {merchantID : Int} (hm : merchantID ≠ b) (id : Int)
    (status : Payment.Status) :
    Spares t b h (fun p => p.owner ≠ some b) (updatePayment merchantID id status) := by
  refine Spares.bind (Spares.run trivial) fun now _ => ?_
  refine Spares.bind (Spares.run trivial) fun later _ => ?_
  refine Spares.bind (P := Gives fun p : PaymentEntry => p.owner ≠ some b)
    (Spares.query hm fun env w hw => gives_found fun p hp => ?_) fun r hr => ?_
  · obtain ⟨row, hrow, rfl⟩ := Option.map_eq_some_iff.mp hp
    obtain ⟨-, hfilter⟩ := Option.filter_eq_some_iff.mp hrow
    rw [Bool.not_true, Bool.false_or, decide_eq_true_iff] at hfilter
    exact owner_ne hm hfilter
  · refine Spares.bind (Spares.succeed (gives_orNotFound hr)) fun pt hpt => ?_
    split
    · refine Spares.bind (Spares.run trivial) fun published _ => ?_
      refine Spares.bind (Spares.succeed (Q := fun _ => True) fun _ _ => trivial) fun _ _ => ?_
      exact Spares.succeed (gives_readPayment hpt)
    · exact Spares.succeed (gives_readPayment hpt)

theorem spares_resolvePayment {merchantID : Int} (hm : merchantID ≠ b)
    (hserial : merchantID ≠ Transaction.merchantIDWildcard) (id : Int) :
    Spares t b h (fun p => p.owner ≠ some b) (resolvePayment merchantID id) := by
  refine Spares.bind (spares_getPaymentByID hm hserial id) fun pt _ => ?_
  split
  · exact Spares.fail _
  · refine Spares.bind (spares_updatePayment hm _ _).mapError fun resolved hresolved => ?_
    split
    · refine Spares.bind (Spares.run trivial) fun _ _ => ?_
      exact Spares.pure hresolved
    · exact Spares.pure hresolved

theorem spares_declinePayment {merchantID : Int} (hm : merchantID ≠ b)
    (hserial : merchantID ≠ Transaction.merchantIDWildcard) (id : Int) :
    Spares t b h (fun p => p.owner ≠ some b) (declinePayment merchantID id) := by
  refine Spares.bind (spares_getPaymentByID hm hserial id) fun pt _ => ?_
  split
  · exact Spares.fail _
  · exact (spares_updatePayment hm _ _).mapError

theorem spares_createPaymentLink (s : Server) {merchantID : Int} (hm : merchantID ≠ b)
    (props : CreateLinkProps) :
    Spares t b h (fun l => l.owner ≠ some b) (s.createPaymentLink merchantID props) := by
  refine Spares.bind (Spares.succeed (Q := fun _ => True) fun _ _ => trivial) fun _ _ => ?_
  refine Spares.bind (spares_getMerchantByID merchantID) fun mt _ => ?_
  refine Spares.bind (Spares.run trivial) fun uuid _ => ?_
  refine Spares.bind (Spares.run trivial) fun slug _ => ?_
  refine Spares.bind (Spares.run trivial) fun createdAt _ => ?_
  refine Spares.bind (Spares.run trivial) fun updatedAt _ => ?_
  refine Spares.bind (P := Gives fun l : PaymentLink => l.owner ≠ some b)
    (Spares.query hm fun env w hw => gives_fitting fun hb => hm (Option.some.inj hb))
    fun created hcreated => ?_
  exact Spares.succeed (hcreated.bind fun l hl => gives_readLink hl)

theorem spares_listPaymentLinks {merchantID : Int} (hm : merchantID ≠ b) :
    Spares t b h (fun ls => ∀ l ∈ ls, l.owner ≠ some b) (listPaymentLinks merchantID) := by
  refine Spares.bind (P := Gives fun ls : List PaymentLink => ∀ l ∈ ls, l.owner ≠ some b)
    (Spares.query trivial fun env w hw => gives_answered (Gives.ok fun l hl => ?_))
    fun entries hentries => ?_
  · have hlisted := (List.mem_filter.mp (mem_ranked.mp (List.mem_of_mem_take hl))).2
    exact owner_ne hm (of_decide_eq_true hlisted)
  · exact Spares.succeed (hentries.bind fun ls hls => gives_readLinks hls)

theorem spares_getPaymentLinkByPublicID {merchantID : Int} (hm : merchantID ≠ b) (uuid : String) :
    Spares t b h (fun l => l.owner ≠ some b) (getPaymentLinkByPublicID merchantID uuid) := by
  refine Spares.bind (P := Gives fun l : PaymentLink => l.owner ≠ some b)
    (Spares.query trivial fun env w hw => gives_found fun l hl => ?_) fun link hlink => ?_
  · have hfound := List.find?_some hl
    rw [World.isLinkOf, Bool.and_eq_true, decide_eq_true_iff] at hfound
    exact owner_ne hm hfound.1
  · exact Spares.succeed ((gives_orNotFound hlink).bind fun l hl => gives_readLink hl)

theorem spares_deletePaymentLinkByPublicID {merchantID : Int} (hm : merchantID ≠ b)
    (uuid : String) :
    Spares t b h (fun _ => True) (deletePaymentLinkByPublicID merchantID uuid) := by
  refine Spares.bind (spares_getPaymentLinkByPublicID hm uuid) fun _ _ => ?_
  refine Spares.bind (Spares.run hm) fun _ _ => ?_
  exact Spares.succeed fun _ _ => trivial

theorem spares_getCustomerByUUID {merchantID : Int} (hm : merchantID ≠ b) (uuid : String) :
    Spares t b h (fun c => c.owner ≠ some b) (getCustomerByUUID merchantID uuid) := by
  refine Spares.bind (P := Gives fun c : Customer => c.owner ≠ some b)
    (Spares.query trivial fun env w hw => gives_found fun c hc => ?_)
    fun _ hx => Spares.succeed (gives_orNotFound hx)
  have hfound := List.find?_some hc
  rw [Bool.and_eq_true, decide_eq_true_iff, decide_eq_true_iff] at hfound
  exact owner_ne hm hfound.2

theorem spares_getCustomerDetailsByUUID {merchantID : Int} (hm : merchantID ≠ b) (uuid : String) :
    Spares t b h (fun d => d.customer.owner ≠ some b ∧ ∀ p ∈ d.recentPayments, p.owner ≠ some b)
      (getCustomerDetailsByUUID merchantID uuid) := by
  refine Spares.bind (spares_getCustomerByUUID hm uuid) fun c hc => ?_
  refine Spares.bind (Spares.run trivial) fun counted _ => ?_
  refine Spares.bind (P := Gives fun l : List PaymentEntry => ∀ p ∈ l, p.owner ≠ some b)
    (Spares.query trivial fun env w hw => gives_answered (Gives.ok fun p hp => ?_))
    fun recent hrecent => ?_
  · have hlisted := (List.mem_filter.mp (mem_ranked.mp (List.mem_of_mem_take hp))).2
    rw [Bool.and_eq_true, decide_eq_true_iff] at hlisted
    exact owner_ne hm hlisted.1
  · refine Spares.bind (Spares.succeed (gives_wrapErr hrecent)) fun entries hentries => ?_
    refine Spares.bind (Spares.succeed (gives_wrapErr
      (gives_readPayments (Q := fun l => ∀ p ∈ l, p.owner ≠ some b) hentries)))
      fun payments hpayments => ?_
    exact Spares.pure ⟨hc, hpayments⟩

theorem spares_cursorCustomer (s : Server) {merchantID : Int} (hm : merchantID ≠ b)
    (cursor : String) :
    Spares t b h (fun _ => True) (s.cursorCustomer merchantID cursor) := by
  rw [Server.cursorCustomer]
  split
  · exact Spares.pure trivial
  · split
    · exact Spares.fail _
    · refine Spares.bind (spares_getCustomerByUUID hm _).mapError fun _ _ => ?_
      exact Spares.pure trivial

theorem owner_of_customer {merchantID : Int} (hm : merchantID ≠ b) {q : Customer → Bool}
    {c : Customer} (hc : c ∈ w.customers.rows.filter fun c => c.merchantID = merchantID && q c) :
    c.owner ≠ some b := by
  have hlisted := (List.mem_filter.mp hc).2
  rw [Bool.and_eq_true, decide_eq_true_iff] at hlisted
  exact owner_ne hm hlisted.1

theorem spares_listCustomers (s : Server) {merchantID : Int} (hm : merchantID ≠ b)
    (opts : ListOptions) :
    Spares t b h (fun r => ∀ c ∈ r.1, c.owner ≠ some b) (s.listCustomers merchantID opts) := by
  have hrest : ∀ (limit : ℕ) (results : Except Err (List Customer)),
      Gives (fun l => ∀ c ∈ l, c.owner ≠ some b) results →
      Spares t b h (fun r => ∀ c ∈ r.1, c.owner ≠ some b) (do
        let customers ← succeed (wrapErr "unable to paginate customers" results)
        pure (customers.take limit, nextCursor Customer.uuid limit customers)) := by
    intro limit results hresults
    refine Spares.bind (Spares.succeed (gives_wrapErr hresults)) fun customers hcustomers => ?_
    exact Spares.pure fun c hc => hcustomers c (List.mem_of_mem_take hc)
  rw [Server.listCustomers]
  dsimp only
  generalize (if opts.limit = 0 then limitDefault else opts.limit) = limit
  split
  · exact Spares.fail _
  · refine Spares.bind (spares_cursorCustomer s hm _) fun cursor _ => ?_
    split
    · refine Spares.bind (Spares.query trivial fun env w hw =>
        gives_answered (Gives.ok fun c hc => ?_)) (hrest limit)
      exact owner_of_customer hm (mem_ranked.mp (List.mem_of_mem_take hc))
    · refine Spares.bind (Spares.query trivial fun env w hw =>
        gives_answered (Gives.ok fun c hc => ?_)) (hrest limit)
      exact owner_of_customer hm (mem_ranked.mp (List.mem_reverse.mp (List.mem_of_mem_take hc)))

/-- A plan is paid to the operator's merchant. -/
theorem spares_createSubscriptionPayment (s : Server) (hadmin : s.adminMerchantID ≠ b)
    (merchantID : Int) (planID redirectURL : String) :
    Spares t b h (fun p => ∀ x ∈ p, x.owner ≠ some b)
      (s.createSubscriptionPayment merchantID planID redirectURL) := by
  have hpayment : ∀ amount description, Spares t b h (fun p => p.owner ≠ some b)
      (s.adapterCreatePayment amount description redirectURL) := by
    intro amount description
    refine Spares.bind (Spares.succeed (Q := fun _ => True) fun _ _ => trivial) fun _ _ => ?_
    refine Spares.bind (Spares.run trivial) fun orderUUID _ => ?_
    exact (spares_createPayment s hadmin _).mapError
  refine Spares.bind (Spares.run trivial) fun found _ => ?_
  refine Spares.bind (Spares.succeed (Q := fun _ => True) fun _ _ => trivial) fun plan _ => ?_
  refine Spares.bind (Spares.run trivial) fun periodStart _ => ?_
  refine Spares.bind (Spares.run trivial) fun created _ => ?_
  refine Spares.bind (Spares.succeed (Q := fun _ => True) fun _ _ => trivial) fun _ _ => ?_
  split
  · refine Spares.pure ?_
    intro x hx
    cases hx
  · have hpaid := hpayment plan.priceUSD
      ("Cryptolink " ++ plan.name ++ " Subscription - " ++ plan.billingPeriod)
    generalize s.adapterCreatePayment plan.priceUSD _ redirectURL = paid at hpaid ⊢
    refine Spares.bind hpaid.mapError fun payment hp => ?_
    refine Spares.pure fun x hx => ?_
    obtain rfl : payment = x := Option.some.inj hx
    exact hp

end

end MerchantAPI

end CryptoLink
