import CryptoLink.Merchants.Isolation

/-!
# Responses to strangers

The middleware lets a request act for the merchants that its credentials speak
for. What the handlers do for such a merchant spares the others, apart from the
wallets that a path names by UUID alone and the payments that plans are paid by.
-/

namespace CryptoLink

namespace MerchantAPI

open KeyedTables ReadCommitted StatementPrograms System

section

variable {t : Titles} {b : Int} {h : Holdings}

/-- The response shows no row of merchant `b`. -/
def Response.hides (b : Int) (r : Response) : Prop := ∀ x ∈ r.rendered, x.owner ≠ some b

theorem hides_error {code : ℕ} {message status : String} {errors : List ErrorItem} :
    Response.hides b ⟨code, .error message status errors⟩ :=
  fun _ hx => by cases hx

theorem hides_noContent {code : ℕ} : Response.hides b (noContent code) :=
  fun _ hx => by cases hx

theorem hides_other {code : ℕ} : Response.hides b ⟨code, .other⟩ :=
  fun _ hx => by cases hx

theorem hides_map {ρ : Type} {owner : ρ → Option Int} {render : ρ → Rendered}
    (hrender : ∀ r, (render r).owner = owner r) {rows : List ρ} (h : ∀ r ∈ rows, owner r ≠ some b)
    (code : ℕ) (cursor : String) : Response.hides b ⟨code, .rows (rows.map render) cursor⟩ := by
  intro x hx
  obtain ⟨r, hr, rfl⟩ := List.mem_map.mp hx
  rw [hrender]
  exact h r hr

theorem hides_single (x : Rendered) (hx : x.owner ≠ some b) (code : ℕ) :
    Response.hides b (json code [x]) := by
  intro y hy
  rw [List.mem_singleton.mp hy]
  exact hx

/-- The handler spares merchant `b` and hides its rows. -/
abbrev Discreet (t : Titles) (b : Int) (h : Holdings) (p : Handling) : Prop :=
  Spares t b h (Response.hides b) p

section Combinators

variable {α : Type}

theorem discreet_rescue {P : α → Prop} {p : TenantCall α} {refuse : Err → Handling}
    {k : α → Handling} (hp : Spares t b h P p) (hrefuse : ∀ e, Discreet t b h (refuse e))
    (hk : ∀ a, P a → Discreet t b h (k a)) : Discreet t b h (rescue p refuse k) := by
  refine Spares.bind hp.attempt fun outcome houtcome => ?_
  cases outcome with
  | ok a => exact hk a (houtcome a rfl)
  | error e => exact hrefuse e

theorem discreet_whenIs {c : Cause} {r : Response} (hr : r.hides b) (e : Err) :
    Discreet t b h (whenIs c r e) := by
  rw [whenIs]
  split
  · exact Spares.pure hr
  · exact Spares.fail e

theorem discreet_bindAndValidate {req : Option α} {valid : α → Bool} {k : α → Handling}
    (hk : ∀ a, Discreet t b h (k a)) : Discreet t b h (bindAndValidate req valid k) := by
  cases req with
  | none => exact Spares.pure hides_error
  | some r =>
    rw [bindAndValidate]
    split
    · exact hk r
    · exact Spares.pure hides_error

theorem discreet_bindBody {req : Option α} {k : α → Handling} (hk : ∀ a, Discreet t b h (k a)) :
    Discreet t b h (bindBody req k) := by
  cases req with
  | none => exact Spares.pure hides_error
  | some r => exact hk r

theorem discreet_withUUID {s : Server} {value : String} {refused : Response}
    {k : String → Handling} (hrefused : refused.hides b)
    (hk : ∀ uuid, s.parseUUID value = some uuid → Discreet t b h (k uuid)) :
    Discreet t b h (s.withUUID value refused k) := by
  rw [Server.withUUID]
  split
  · exact Spares.pure hrefused
  · rename_i uuid hparse
    exact hk uuid hparse

theorem discreet_withPagination {q : ListQuery} {k : ℕ → Bool → Handling}
    (hk : ∀ limit reverseOrder, Discreet t b h (k limit reverseOrder)) :
    Discreet t b h (withPagination q k) := by
  rw [withPagination]
  split
  · exact Spares.pure hides_error
  · split
    · exact Spares.pure hides_error
    · exact hk _ _

theorem discreet_handleOutside (what : Outside) (code : ℕ) {refuse : Err → Handling}
    (hrefuse : ∀ e, Discreet t b h (refuse e)) :
    Discreet t b h (handleOutside what code refuse) := by
  refine Spares.bind (Spares.run trivial) fun outcome _ => ?_
  cases outcome with
  | ok _ => exact Spares.pure hides_other
  | error e => exact hrefuse e

theorem discreet_withinLimit (check : Outside) {k : Handling} (hk : Discreet t b h k) :
    Discreet t b h (withinLimit check k) := by
  refine Spares.bind (Spares.run trivial) fun outcome _ => ?_
  cases outcome with
  | ok _ => exact hk
  | error e =>
    dsimp only
    split
    · exact Spares.pure hides_error
    · exact hk

theorem discreet_withinLimits (s : Server) (merchantID : Int) (price : ℚ) {k : Handling}
    (hk : Discreet t b h k) : Discreet t b h (s.withinLimits merchantID price k) := by
  rw [Server.withinLimits]
  split
  · exact discreet_withinLimit _ (discreet_withinLimit _ hk)
  · exact hk

end Combinators

section Handlers

variable {m : Merchant}

theorem Stranger.owner_ne (hm : Stranger t b m) : m.owner ≠ some b :=
  fun hb => hm.other (Option.some.inj hb)

theorem discreet_handleUpdateMerchant (s : Server) (hm : Stranger t b m)
    (req : Option UpdateMerchantRequest) : Discreet t b h (s.handleUpdateMerchant m req) := by
  refine discreet_bindAndValidate fun r => ?_
  split
  · exact Spares.pure hides_error
  · exact discreet_rescue (spares_updateMerchant hm.other _ _)
      (fun _ => Spares.pure hides_error) fun _ _ => Spares.pure hides_noContent

theorem discreet_handleDeleteMerchant (hm : Stranger t b m) :
    Discreet t b h (handleDeleteMerchant m) := by
  have huuid : t.merchant m.uuid ≠ b := by
    rw [hm.titled]
    exact hm.other
  exact discreet_rescue (spares_deleteByUUID huuid) (fun _ => Spares.pure hides_error)
    fun _ _ => Spares.pure hides_noContent

theorem discreet_handleUpdateMerchantWebhook (s : Server) (hm : Stranger t b m)
    (req : Option WebhookSettings) : Discreet t b h (s.handleUpdateMerchantWebhook m req) := by
  refine discreet_bindAndValidate fun r => ?_
  split
  · exact Spares.pure hides_error
  · exact Spares.bind (spares_upsertSettings hm.other _) fun _ _ => Spares.pure hides_noContent

theorem discreet_handleUpdateSupportedMethods (s : Server) (hm : Stranger t b m)
    (req : Option (List String)) : Discreet t b h (s.handleUpdateSupportedMethods m req) := by
  refine discreet_bindAndValidate fun tickers => ?_
  split
  · exact Spares.pure hides_error
  · exact Spares.bind (spares_updateSupportedMethods s hm.other _)
      fun _ _ => Spares.pure hides_noContent

theorem discreet_handleUpdateFeeSettings (hm : Stranger t b m)
    (req : Option FeeSettingsRequest) : Discreet t b h (handleUpdateFeeSettings m req) := by
  refine discreet_bindBody fun r => ?_
  split
  · exact Spares.pure hides_error
  · exact discreet_rescue (spares_upsertSettings hm.other _) (fun _ => Spares.pure hides_error)
      fun _ _ => Spares.pure hides_noContent

theorem discreet_handleListMerchantTokens (hm : Stranger t b m) :
    Discreet t b h (handleListMerchantTokens m) :=
  discreet_rescue (spares_listByEntityType hm.other) (fun _ => Spares.pure hides_error)
    fun _ htokens => Spares.pure (hides_map (fun _ => rfl) htokens _ _)

theorem discreet_handleCreateMerchantToken (hm : Stranger t b m) (req : Option String) :
    Discreet t b h (handleCreateMerchantToken m req) := by
  refine discreet_bindAndValidate fun name => ?_
  exact Spares.bind (spares_createMerchantToken hm.other name)
    fun _ htoken => Spares.pure (hides_single (.token _) htoken _)

theorem discreet_handleDeleteMerchantTokens (s : Server) (hm : Stranger t b m)
    (tokenId : String) : Discreet t b h (s.handleDeleteMerchantTokens m tokenId) := by
  refine discreet_withUUID hides_error fun uuid _ => ?_
  refine discreet_rescue (spares_getMerchantTokenByUUID m.id uuid) (discreet_whenIs hides_error)
    fun token htoken => ?_
  have hid : t.token token.id ≠ some b := by
    rw [htoken]
    exact hm.owner_ne
  exact Spares.bind (spares_deleteToken hid) fun _ _ => Spares.pure hides_noContent

theorem discreet_handleListXpubWallets (hm : Stranger t b m) :
    Discreet t b h (handleListXpubWallets m) :=
  Spares.bind (spares_listXpubWallets hm.other)
    fun _ hwallets => Spares.pure (hides_map (fun _ => rfl) hwallets _ _)

theorem discreet_handleCreateXpubWallet (s : Server) (hm : Stranger t b m)
    (req : Option XpubWalletRequest) : Discreet t b h (s.handleCreateXpubWallet m req) := by
  cases req with
  | none => exact Spares.pure hides_error
  | some r =>
    rw [Server.handleCreateXpubWallet]
    split
    · exact Spares.pure hides_error
    · refine discreet_rescue (spares_createXpubWallet s hm.other _ _ _) (fun e => ?_)
        fun _ hwallet => Spares.pure (hides_single (.xpubWallet _) hwallet _)
      split
      · exact Spares.pure hides_error
      · exact discreet_whenIs hides_error e

/-- The path names no wallet of the other merchant. -/
def NotNamed (s : Server) (h : Holdings) (walletId : String) : Prop :=
  ∀ x ∈ h.xpubWallets, s.parseUUID walletId ≠ some x.uuid

theorem discreet_withWallet {s : Server} {walletId : String} (hnamed : NotNamed s h walletId)
    {k : XpubWallet → Handling}
    (hk : ∀ x : XpubWallet, x.merchantID ≠ b → t.wallet x.id ≠ b → Discreet t b h (k x)) :
    Discreet t b h (s.withWallet walletId k) := by
  refine discreet_withUUID hides_error fun uuid hparse => ?_
  refine discreet_rescue (spares_getXpubWalletByUUID uuid) (discreet_whenIs hides_error) ?_
  rintro x ⟨huuid, htitled, hown⟩
  have hother : x.merchantID ≠ b := by
    intro hb
    exact hnamed x (hown hb) (hparse.trans (congrArg some huuid.symm))
  refine hk x hother ?_
  rw [htitled]
  exact hother

theorem discreet_handleGetXpubWallet {s : Server} {walletId : String}
    (hnamed : NotNamed s h walletId) : Discreet t b h (s.handleGetXpubWallet walletId) := by
  refine discreet_withWallet hnamed fun x hother _ => ?_
  exact Spares.pure (hides_single (.xpubWallet x) (owner_ne hother rfl) _)

theorem discreet_handleDeleteXpubWallet (s : Server) (hm : Stranger t b m) (walletId : String) :
    Discreet t b h (s.handleDeleteXpubWallet m walletId) := by
  refine discreet_withUUID hides_error fun uuid _ => ?_
  exact discreet_rescue (spares_deactivateWallet uuid hm.other) (discreet_whenIs hides_error)
    fun _ _ => Spares.pure hides_noContent

theorem discreet_handleDeriveAddress {s : Server} {walletId : String}
    (hnamed : NotNamed s h walletId) : Discreet t b h (s.handleDeriveAddress walletId) := by
  refine discreet_withWallet hnamed fun x _ hwallet => ?_
  exact Spares.bind (spares_deriveAddress s.toKeyLibraries hwallet)
    fun _ haddress => Spares.pure (hides_single (.derivedAddress _) haddress _)

theorem discreet_handleGetNextAddress {s : Server} {walletId : String}
    (hnamed : NotNamed s h walletId) : Discreet t b h (s.handleGetNextAddress walletId) := by
  refine discreet_withWallet hnamed fun x _ hwallet => ?_
  exact Spares.bind (spares_getNextUnusedAddress s.toKeyLibraries hwallet)
    fun _ haddress => Spares.pure (hides_single (.derivedAddress _) haddress _)

theorem discreet_handleListDerivedAddresses {s : Server} {walletId : String}
    (hnamed : NotNamed s h walletId) :
    Discreet t b h (s.handleListDerivedAddresses walletId) := by
  refine discreet_withWallet hnamed fun x _ hwallet => ?_
  exact Spares.bind (spares_listDerivedAddresses hwallet)
    fun _ haddresses => Spares.pure (hides_map (fun _ => rfl) haddresses _ _)

theorem discreet_handleListEvmCollectors (hm : Stranger t b m) :
    Discreet t b h (handleListEvmCollectors m) :=
  Spares.bind (spares_listCollectors hm.other)
    fun _ hcollectors => Spares.pure (hides_map (fun _ => rfl) hcollectors _ _)

theorem discreet_handleGetEvmCollector (s : Server) (hm : Stranger t b m) (blockchain : String) :
    Discreet t b h (s.handleGetEvmCollector m blockchain) :=
  discreet_rescue (spares_getCollector s hm.other _) (discreet_whenIs hides_error)
    fun _ hc => Spares.pure (hides_single (.collector _) hc _)

theorem discreet_handleSetupEvmCollector (s : Server) (hm : Stranger t b m)
    (req : Option SetupCollectorRequest) : Discreet t b h (s.handleSetupEvmCollector m req) := by
  refine discreet_bindBody fun r => ?_
  split
  · exact Spares.pure hides_error
  · split
    · exact Spares.pure hides_error
    · split
      · exact Spares.pure hides_error
      · exact Spares.bind (spares_registerCollector s hm.other _ _ _ _ _)
          fun _ hc => Spares.pure (hides_single (.collector _) hc _)

theorem discreet_handleDeleteEvmCollector (s : Server) (hm : Stranger t b m)
    (blockchain : String) : Discreet t b h (s.handleDeleteEvmCollector m blockchain) :=
  discreet_rescue (spares_deleteCollector s hm.other _) (discreet_whenIs hides_error)
    fun _ _ => Spares.pure hides_other

theorem discreet_handleGetEvmCollectorBalance (s : Server) (hm : Stranger t b m)
    (blockchain : String) : Discreet t b h (s.handleGetEvmCollectorBalance m blockchain) := by
  refine discreet_rescue (spares_getCollector s hm.other _) (discreet_whenIs hides_error)
    fun c _ => ?_
  exact Spares.bind (Spares.run trivial) fun _ _ => Spares.pure hides_other

theorem discreet_handleCreateFormSubmission (userID : Int) (req : Option FormRequest) :
    Discreet t b h (handleCreateFormSubmission userID req) := by
  refine discreet_bindAndValidate fun r => ?_
  split
  · exact Spares.fail _
  · refine Spares.bind (Spares.run trivial) fun published _ => ?_
    refine Spares.bind (Spares.succeed (Q := fun _ => True) fun _ _ => trivial) fun _ _ => ?_
    exact Spares.pure hides_noContent

theorem discreet_handleCurrencyConvert (fromTicker toTicker amount : String) :
    Discreet t b h (handleCurrencyConvert fromTicker toTicker amount) := by
  refine discreet_handleOutside _ _ fun e => ?_
  split
  · exact Spares.pure hides_error
  · exact discreet_whenIs hides_error e

theorem discreet_handleListPayments (s : Server) (hm : Stranger t b m) (q : ListQuery) :
    Discreet t b h (s.handleListPayments m q) := by
  refine discreet_withPagination fun limit reverseOrder => ?_
  dsimp only
  split
  · exact Spares.pure hides_error
  · refine discreet_rescue (spares_listWithRelations s hm.other _) (discreet_whenIs hides_error) ?_
    rintro ⟨payments, cursor⟩ hpayments
    refine Spares.pure fun x hx => ?_
    obtain ⟨p, hp, hx⟩ := List.mem_flatMap.mp hx
    exact hpayments p hp x hx

theorem discreet_handleGetPayment (s : Server) (hm : Stranger t b m) (paymentId : String) :
    Discreet t b h (s.handleGetPayment m paymentId) := by
  refine discreet_withUUID hides_error fun id _ => ?_
  refine discreet_rescue (spares_getByMerchantOrderIDWithRelations hm.other id)
    (discreet_whenIs hides_error) fun payments hpayments => ?_
  refine Spares.pure fun x hx => ?_
  obtain ⟨p, hp, hx⟩ := List.mem_flatMap.mp hx
  exact hpayments p hp x hx

theorem discreet_handleCreatePayment (s : Server) (hm : Stranger t b m)
    (req : Option CreatePaymentRequest) : Discreet t b h (s.handleCreatePayment m req) := by
  refine discreet_bindAndValidate fun r => ?_
  refine discreet_withUUID hides_error fun orderUUID _ => ?_
  split
  · exact Spares.pure hides_error
  · split
    · exact Spares.pure hides_error
    · split
      · exact Spares.pure hides_error
      · refine discreet_withinLimits s m.id r.price ?_
        refine discreet_rescue (spares_createPayment s hm.other _) (fun e => ?_)
          fun _ hp => Spares.pure (hides_single (.payment _) hp _)
        split
        · exact Spares.pure hides_error
        · exact Spares.pure hides_error

theorem discreet_handleVerdict (s : Server) (hm : Stranger t b m) (paymentId : String)
    (parses : Bool) {verdict : Int → Int → TenantCall PaymentEntry}
    (hverdict : ∀ id, Spares t b h (fun p => p.owner ≠ some b) (verdict m.id id)) :
    Discreet t b h (s.handleVerdict m paymentId parses verdict) := by
  refine discreet_withUUID hides_error fun id _ => ?_
  split
  · exact Spares.pure hides_error
  · refine discreet_rescue (spares_getByMerchantOrderID hm.other id) (discreet_whenIs hides_error)
      fun pt _ => ?_
    refine discreet_rescue (hverdict pt.id) (fun e => ?_)
      fun _ hp => Spares.pure (hides_single (.payment _) hp _)
    split
    · exact Spares.pure hides_error
    · exact Spares.pure hides_error

theorem discreet_handleListPaymentLinks (hm : Stranger t b m) :
    Discreet t b h (handleListPaymentLinks m) :=
  Spares.bind (spares_listPaymentLinks hm.other)
    fun _ hlinks => Spares.pure (hides_map (fun _ => rfl) hlinks _ _)

theorem discreet_handleGetPaymentLink (s : Server) (hm : Stranger t b m)
    (paymentLinkId : String) : Discreet t b h (s.handleGetPaymentLink m paymentLinkId) := by
  refine discreet_withUUID hides_error fun id _ => ?_
  exact discreet_rescue (spares_getPaymentLinkByPublicID hm.other id) (discreet_whenIs hides_error)
    fun _ hl => Spares.pure (hides_single (.link _) hl _)

theorem discreet_handleDeletePaymentLink (s : Server) (hm : Stranger t b m)
    (paymentLinkId : String) : Discreet t b h (s.handleDeletePaymentLink m paymentLinkId) := by
  refine discreet_withUUID hides_error fun id _ => ?_
  exact discreet_rescue (spares_deletePaymentLinkByPublicID hm.other id)
    (discreet_whenIs hides_error) fun _ _ => Spares.pure hides_noContent

theorem discreet_handleCreatePaymentLink (s : Server) (hm : Stranger t b m)
    (req : Option CreatePaymentLinkRequest) :
    Discreet t b h (s.handleCreatePaymentLink m req) := by
  refine discreet_bindAndValidate fun r => ?_
  split
  · exact Spares.pure hides_error
  · split
    · exact Spares.pure hides_error
    · exact discreet_rescue (spares_createPaymentLink s hm.other _)
        (fun e => discreet_whenIs hides_error e) fun _ hl =>
          Spares.pure (hides_single (.link _) hl _)

theorem discreet_handleListCustomers (s : Server) (hm : Stranger t b m) (q : ListQuery) :
    Discreet t b h (s.handleListCustomers m q) := by
  refine discreet_withPagination fun limit reverseOrder => ?_
  refine discreet_rescue (spares_listCustomers s hm.other _) (discreet_whenIs hides_error) ?_
  rintro ⟨customers, cursor⟩ hcustomers
  exact Spares.pure (hides_map (fun _ => rfl) hcustomers _ _)

theorem discreet_handleGetCustomerDetails (s : Server) (hm : Stranger t b m)
    (customerId : String) : Discreet t b h (s.handleGetCustomerDetails m customerId) := by
  refine discreet_withUUID hides_error fun id _ => ?_
  refine discreet_rescue (spares_getCustomerDetailsByUUID hm.other id)
    (discreet_whenIs hides_error) ?_
  rintro d ⟨hcustomer, hpayments⟩
  refine Spares.pure fun x hx => ?_
  rcases List.mem_cons.mp hx with rfl | hx
  · exact hcustomer
  · obtain ⟨p, hp, rfl⟩ := List.mem_map.mp hx
    exact hpayments p hp

theorem discreet_handleGetCurrentSubscription :
    Discreet t b h (handleGetCurrentSubscription m) := by
  refine Spares.bind (Spares.run trivial) fun sub _ => ?_
  cases sub with
  | error e =>
    refine Spares.pure ?_
    rw [noSubscription]
    split
    · exact hides_error
    · exact hides_error
  | ok _ => exact Spares.bind (Spares.run trivial) fun _ _ => Spares.pure hides_other

theorem discreet_handleUpgradePlan (s : Server) (hadmin : s.adminMerchantID ≠ b)
    (req : Option UpgradeRequest) : Discreet t b h (s.handleUpgradePlan m req) := by
  refine discreet_bindBody fun r => ?_
  split
  · exact Spares.pure hides_error
  · split
    · exact Spares.pure hides_error
    · refine discreet_rescue (spares_createSubscriptionPayment s hadmin _ _ _)
        (fun _ => Spares.pure hides_error) fun payment hpayment => ?_
      refine Spares.pure fun x hx => ?_
      obtain ⟨p, hp, rfl⟩ := Option.map_eq_some_iff.mp (Option.mem_toList.mp hx)
      exact hpayment p hp

theorem discreet_handleCancelSubscription : Discreet t b h (handleCancelSubscription m) := by
  refine Spares.bind (Spares.run trivial) fun sub _ => ?_
  cases sub with
  | error e =>
    refine Spares.pure ?_
    rw [noSubscription]
    split
    · exact hides_error
    · exact hides_error
  | ok _ => exact discreet_handleOutside _ _ fun _ => Spares.pure hides_error

end Handlers

/-- The credentials are those of the merchant's user or a token of the merchant,
and the merchant is not in the trash. -/
def SpeaksFor (t : Titles) (h : Holdings) : Credentials → Prop
  | .dashboard session token =>
      ∃ m ∈ h.merchants, m.deletedAt = none ∧
        (session = some m.creatorID ∨ token ≠ "" ∧ t.user token = m.creatorID)
  | .merchantToken token =>
      (∃ x ∈ h.tokens, x.token = token) ∧ ∃ m ∈ h.merchants, m.deletedAt = none

/-- The route leads to the merchant's rows without its credentials: wallets are
found by UUID alone, and plans are paid to the operator's own merchant. -/
def Server.leadsTo (s : Server) (b : Int) (h : Holdings) : Route → Prop
  | .getXpubWallet walletId | .deriveAddress walletId | .getNextAddress walletId
  | .listDerivedAddresses walletId => ∃ x ∈ h.xpubWallets, s.parseUUID walletId = some x.uuid
  | .upgradePlan _ => s.adminMerchantID = b
  | _ => False

/-- The request has nothing to do with the merchant. -/
structure Server.Apart (s : Server) (t : Titles) (b : Int) (h : Holdings) (req : Request) :
    Prop where
  credentials : ¬ SpeaksFor t h req.credentials
  route : ¬ s.leadsTo b h req.route

theorem Known.stranger {m : Merchant} (hm : Known t b h m) (hother : m.id ≠ b) :
    Stranger t b m :=
  ⟨hother, hm.titled, hm.serial⟩

/-- Whoever is admitted works for somebody else, and whoever is not sees no row. -/
structure Admitting (t : Titles) (b : Int) (x : Admission) : Prop where
  context : ∀ c, x = .ok c → Stranger t b c.merchant
  refusal : ∀ r, x = .error r → r.hides b

theorem Admitting.refused {r : Response} (hr : r.hides b) : Admitting t b (.error r) := by
  constructor
  · intro c hc
    cases hc
  · intro r' hr'
    cases hr'
    exact hr

theorem admitting_guardsMerchants (merchantId : String) (userID : Int) {found : Option Merchant}
    (hfound : ∀ m ∈ found, Stranger t b m) :
    Admitting t b (guardsMerchants merchantId userID found) := by
  cases found with
  | none => exact .refused hides_error
  | some m =>
    rw [guardsMerchants]
    split
    · exact .refused hides_error
    · split
      · exact .refused hides_error
      · constructor
        · intro c hc
          cases hc
          exact hfound m rfl
        · intro r hr
          cases hr

theorem mem_toOption {α : Type} {x : Except Err α} {a : α} (h : a ∈ x.toOption) : x = .ok a := by
  cases x with
  | error e => cases h
  | ok a' =>
    cases h
    rfl

theorem spares_userByID (id : Int) :
    Spares t b h (fun found => ∀ u ∈ found, u.id = id) (userByID id) := by
  refine Spares.bind (P := Gives fun u : User => u.id = id)
    (Spares.query trivial fun env w _ => gives_found fun u hu => (Table.get_eq_some hu).2)
    fun found hfound => ?_
  cases found with
  | error e =>
    refine Spares.pure fun u hu => ?_
    cases hu
  | ok u =>
    refine Spares.pure fun u' hu' => ?_
    dsimp only at hu'
    split at hu'
    · cases hu'
    · cases hu'
      exact hfound u rfl

theorem spares_userBySession (session : Option Int) :
    Spares t b h (fun found => ∀ u ∈ found, session = some u.id) (userBySession session) := by
  cases session with
  | none =>
    refine Spares.pure fun u hu => ?_
    cases hu
  | some id => exact (spares_userByID id).mono fun found hfound u hu => by rw [hfound u hu]

theorem spares_userByToken (token : String) :
    Spares t b h (fun x => (∀ r, x = .error r → r.hides b) ∧
      ∀ found, x = .ok found → ∀ u ∈ found, token ≠ "" ∧ t.user token = u.id)
      (userByToken token) := by
  rw [userByToken]
  split
  · refine Spares.pure ⟨fun r hr => (by cases hr), fun found hf u hu => ?_⟩
    cases hf
    cases hu
  · rename_i hempty
    refine Spares.bind (spares_getToken .user token).attempt fun found hfound => ?_
    cases found with
    | error e =>
      refine Spares.pure ⟨fun r hr => ?_, fun found hf => (by cases hf)⟩
      cases hr
      exact hides_error
    | ok x =>
      obtain ⟨hnamed, htype, htext⟩ := hfound x rfl
      refine Spares.bind (spares_userByID x.entityID) fun user huser => ?_
      refine Spares.pure ⟨fun r hr => (by cases hr), fun found hf u hu => ?_⟩
      cases hf
      refine ⟨hempty, ?_⟩
      rw [huser u hu, ← htext]
      exact hnamed.user htype

theorem spares_merchantOfUser (s : Server) (merchantId : String) {user : User}
    (huser : ∀ m ∈ h.merchants, m.deletedAt = none → m.creatorID ≠ user.id) :
    Spares t b h (Admitting t b) (s.merchantOfUser merchantId user) := by
  rw [Server.merchantOfUser]
  split
  · exact Spares.pure (admitting_guardsMerchants _ _ fun m hm => by cases hm)
  · refine Spares.bind (spares_getByUUIDAndCreatorID _ user.id).attempt fun found hfound => ?_
    refine Spares.pure (admitting_guardsMerchants _ _ fun m hm => ?_)
    obtain ⟨hknown, hcreator⟩ := hfound m (mem_toOption hm)
    exact hknown.stranger fun hb => huser m (hknown.own hb) hknown.live hcreator

theorem spares_admitUser (s : Server) (merchantId : String) {user : Option User}
    (huser : ∀ u ∈ user, ∀ m ∈ h.merchants, m.deletedAt = none → m.creatorID ≠ u.id) :
    Spares t b h (Admitting t b) (s.admitUser merchantId user) := by
  cases user with
  | none => exact Spares.pure (.refused hides_error)
  | some u => exact spares_merchantOfUser s merchantId (huser u rfl)

theorem spares_admitToken (merchantId : String) {token : String}
    (htoken : ¬ SpeaksFor t h (.merchantToken token)) :
    Spares t b h (Admitting t b) (admitToken merchantId token) := by
  rw [admitToken]
  split
  · exact Spares.pure (.refused hides_error)
  · refine Spares.bind (spares_getToken .merchant token).attempt fun found hfound => ?_
    cases found with
    | error e => exact Spares.pure (.refused hides_error)
    | ok x =>
      obtain ⟨hnamed, htype, htext⟩ := hfound x rfl
      refine Spares.bind (spares_getMerchantByID x.entityID).attempt fun mt hmt => ?_
      refine Spares.pure (admitting_guardsMerchants _ _ fun m hm => ?_)
      obtain ⟨hknown, hid⟩ := hmt m (mem_toOption hm)
      refine hknown.stranger fun hb => htoken ⟨⟨x, hnamed.own ?_, htext⟩, m, hknown.own hb,
        hknown.live⟩
      rw [APIToken.owner, if_pos htype, ← hid, hb]

theorem spares_admitted (s : Server) {req : Request}
    (hreq : ¬ SpeaksFor t h req.credentials) :
    Spares t b h (Admitting t b) (s.admitted req) := by
  obtain ⟨credentials, merchantId, route⟩ := req
  cases credentials with
  | merchantToken token =>
    dsimp only [Server.admitted]
    split
    · exact spares_admitToken merchantId hreq
    · exact Spares.pure (.refused hides_error)
  | dashboard session token =>
    have hsession : ∀ u : User, session = some u.id → ∀ m ∈ h.merchants, m.deletedAt = none →
        m.creatorID ≠ u.id := by
      rintro u rfl m hm hlive hcreator
      exact hreq ⟨m, hm, hlive, .inl (congrArg some hcreator.symm)⟩
    have htoken : ∀ u : User, token ≠ "" ∧ t.user token = u.id → ∀ m ∈ h.merchants,
        m.deletedAt = none → m.creatorID ≠ u.id := by
      rintro u ⟨hempty, htitle⟩ m hm hlive hcreator
      exact hreq ⟨m, hm, hlive, .inr ⟨hempty, htitle.trans hcreator.symm⟩⟩
    refine Spares.bind (spares_userBySession session) fun known hknown => ?_
    cases known with
    | some user => exact spares_admitUser s merchantId fun u hu => hsession u (hknown u hu)
    | none =>
      refine Spares.bind (spares_userByToken token) fun byToken hbyToken => ?_
      cases byToken with
      | error refused => exact Spares.pure (.refused (hbyToken.1 refused rfl))
      | ok user =>
        exact spares_admitUser s merchantId fun u hu => htoken u (hbyToken.2 user rfl u hu)

theorem discreet_handle (s : Server) {c : Context} (hc : Stranger t b c.merchant) {route : Route}
    (hroute : ¬ s.leadsTo b h route) : Discreet t b h (s.handle c route) := by
  cases route with
  | getMerchant => exact Spares.pure (hides_single (.merchant _) hc.owner_ne _)
  | updateMerchant req => exact discreet_handleUpdateMerchant s hc req
  | deleteMerchant => exact discreet_handleDeleteMerchant hc
  | updateMerchantWebhook req => exact discreet_handleUpdateMerchantWebhook s hc req
  | updateMerchantSupportedMethods req => exact discreet_handleUpdateSupportedMethods s hc req
  | listMerchantTokens => exact discreet_handleListMerchantTokens hc
  | createMerchantToken req => exact discreet_handleCreateMerchantToken hc req
  | deleteMerchantTokens tokenId => exact discreet_handleDeleteMerchantTokens s hc tokenId
  | listXpubWallets => exact discreet_handleListXpubWallets hc
  | createXpubWallet req => exact discreet_handleCreateXpubWallet s hc req
  | getXpubWallet walletId =>
    exact discreet_handleGetXpubWallet fun x hx hparse => hroute ⟨x, hx, hparse⟩
  | deleteXpubWallet walletId => exact discreet_handleDeleteXpubWallet s hc walletId
  | deriveAddress walletId =>
    exact discreet_handleDeriveAddress fun x hx hparse => hroute ⟨x, hx, hparse⟩
  | getNextAddress walletId =>
    exact discreet_handleGetNextAddress fun x hx hparse => hroute ⟨x, hx, hparse⟩
  | listDerivedAddresses walletId =>
    exact discreet_handleListDerivedAddresses fun x hx hparse => hroute ⟨x, hx, hparse⟩
  | listEvmCollectors => exact discreet_handleListEvmCollectors hc
  | setupEvmCollector req => exact discreet_handleSetupEvmCollector s hc req
  | getEvmCollector blockchain => exact discreet_handleGetEvmCollector s hc blockchain
  | deleteEvmCollector blockchain => exact discreet_handleDeleteEvmCollector s hc blockchain
  | getEvmCollectorBalance blockchain =>
    exact discreet_handleGetEvmCollectorBalance s hc blockchain
  | getMerchantCollectorFactory blockchain =>
    exact discreet_handleOutside _ _ (discreet_whenIs hides_error)
  | createFormSubmission req => exact discreet_handleCreateFormSubmission _ req
  | getCurrencyConvert fromTicker toTicker amount =>
    exact discreet_handleCurrencyConvert fromTicker toTicker amount
  | getFeeSettings => exact Spares.pure (hides_single (.merchant _) hc.owner_ne _)
  | updateFeeSettings req => exact discreet_handleUpdateFeeSettings hc req
  | getCurrentSubscription => exact discreet_handleGetCurrentSubscription
  | upgradePlan req => exact discreet_handleUpgradePlan s hroute req
  | cancelSubscription => exact discreet_handleCancelSubscription
  | getUsageHistory => exact discreet_handleOutside _ _ fun _ => Spares.pure hides_error
  | listPayments q => exact discreet_handleListPayments s hc q
  | getPayment paymentId => exact discreet_handleGetPayment s hc paymentId
  | createPayment req => exact discreet_handleCreatePayment s hc req
  | resolvePayment paymentId parses =>
    exact discreet_handleVerdict s hc paymentId parses (spares_resolvePayment hc.other hc.serial)
  | declinePayment paymentId parses =>
    exact discreet_handleVerdict s hc paymentId parses (spares_declinePayment hc.other hc.serial)
  | listPaymentLinks => exact discreet_handleListPaymentLinks hc
  | getPaymentLink paymentLinkId => exact discreet_handleGetPaymentLink s hc paymentLinkId
  | deletePaymentLink paymentLinkId => exact discreet_handleDeletePaymentLink s hc paymentLinkId
  | createPaymentLink req => exact discreet_handleCreatePaymentLink s hc req
  | listBalances => exact discreet_handleOutside _ _ fun e => Spares.fail e
  | listCustomers q => exact discreet_handleListCustomers s hc q
  | getCustomerDetails customerId => exact discreet_handleGetCustomerDetails s hc customerId

/-- A request that has nothing to do with a merchant spares it and hides its rows. -/
theorem discreet_serve (s : Server) {req : Request} (hreq : s.Apart t b h req) :
    Discreet t b h (s.serve req) := by
  refine Spares.bind (spares_admitted s hreq.credentials) fun admission hadmission => ?_
  cases admission with
  | error refused => exact Spares.pure (hadmission.refusal refused rfl)
  | ok c => exact discreet_handle s (hadmission.context c rfl) hreq.route

end

end MerchantAPI

end CryptoLink
