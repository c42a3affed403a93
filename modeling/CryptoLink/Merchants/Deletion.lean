import CryptoLink.Merchants.Tables

/-!
# Deletion by an administrator

What a merchant operates with is deleted by one statement after the other, and
its books are kept. A statement runs only if the migrations left its table and
columns in place.
-/

namespace CryptoLink

namespace Deletion

open KeyedTables ReadCommitted StatementPrograms Subscription MerchantAPI

/-- What a migration does to a table. -/
inductive Change where
  | createTable (table : String) (columns : List String)
  | dropTable (table : String)
  | addColumns (table : String) (columns : List String)
  | dropColumns (table : String) (columns : List String)

/-- Tables by name, with their columns. -/
abbrev Schema := List (String × List String)

def Change.apply (s : Schema) : Change → Schema
  | .createTable table columns =>
      -- `if not exists`
      match s.lookup table with
      | some _ => s
      | none => s ++ [(table, columns)]
  | .dropTable table => s.filter fun t => t.1 ≠ table
  | .addColumns table columns =>
      s.map fun t => if t.1 = table then (t.1, t.2 ++ columns) else t
  | .dropColumns table columns =>
      s.map fun t => if t.1 = table then (t.1, t.2.filter fun c => c ∉ columns) else t

/-- The migrations in order, as far as they touch the tables of a deletion. -/
def migrations : List (String × List Change) :=
  [("20220612173522-create_users_table",
      [.createTable "users" ["id", "name", "email", "uuid", "google_id", "profile_image_url",
        "created_at", "updated_at", "deleted_at", "settings"]]),
   ("20220622120844-create_merchants_table",
      [.createTable "merchants" ["id", "uuid", "created_at", "updated_at", "deleted_at", "name",
        "website", "creator_id", "settings"]]),
   ("20220622131058-create_api_tokens_table",
      [.createTable "api_tokens" ["id", "entity_type", "entity_id", "created_at", "token", "name",
        "settings", "uuid"]]),
   ("20221105230101-create_wallet_locks_table",
      [.createTable "wallet_locks" ["id", "wallet_id", "merchant_id", "currency", "network_id",
        "locked_at", "locked_until"]]),
   ("20221113172035-create_registries_table",
      [.createTable "registries" ["id", "created_at", "updated_at", "merchant_id", "key", "value",
        "description"]]),
   ("20221224201237-create_merchant_addresses_table",
      [.createTable "merchant_addresses" ["id", "uuid", "created_at", "updated_at", "merchant_id",
        "name", "blockchain", "address"]]),
   ("20230503223903-create_payment_links_table",
      [.createTable "payment_links" ["id", "uuid", "slug", "created_at", "updated_at",
        "merchant_id", "name", "description", "price", "decimals", "currency", "success_action",
        "redirect_url", "success_message", "is_test"]]),
   ("20230603184154-update_users_add_passwords", [.addColumns "users" ["password"]]),
   ("20241120120000-create_xpub_wallets_table",
      [.createTable "xpub_wallets" ["id", "uuid", "merchant_id", "blockchain", "xpub",
        "derivation_path", "created_at", "updated_at", "tatum_subscription_id",
        "last_derived_index", "is_active"]]),
   ("20241120120001-create_derived_addresses_table",
      [.createTable "derived_addresses" ["id", "uuid", "xpub_wallet_id", "merchant_id",
        "blockchain", "address", "derivation_path", "derivation_index", "public_key", "is_used",
        "payment_id", "tatum_mainnet_subscription_id", "tatum_testnet_subscription_id",
        "created_at", "updated_at"]]),
   ("20251120134144-add_super_admin_to_users", [.addColumns "users" ["is_super_admin"]]),
   ("20251120134146-create_merchant_subscriptions",
      [.createTable "merchant_subscriptions" ["id", "uuid", "merchant_id", "plan_id", "status",
        "current_period_start", "current_period_end", "payment_id", "auto_renew", "created_at",
        "updated_at", "cancelled_at"]]),
   ("20260219120000-create_evm_collector_wallets",
      [.createTable "evm_collector_wallets" ["id", "uuid", "merchant_id", "blockchain", "chain_id",
        "contract_address", "owner_address", "factory_address", "tatum_subscription_id",
        "is_active", "created_at", "updated_at"]]),
   ("20260306120000-remove_tatum_columns",
      [.dropColumns "xpub_wallets" ["tatum_subscription_id"],
       .dropColumns "derived_addresses" ["tatum_mainnet_subscription_id",
         "tatum_testnet_subscription_id"],
       .dropColumns "evm_collector_wallets" ["tatum_subscription_id"]]),
   ("20260313120000-drop_legacy_tables",
      [.dropTable "wallet_locks", .dropTable "merchant_addresses"]),
   ("20260314200000-enhance_registration_and_consent",
      [.addColumns "users" ["company_name", "address", "website", "phone", "email_verified",
        "verification_token", "verification_token_expires", "marketing_consent",
        "terms_accepted_at"]])]

def schema : Schema := (migrations.flatMap Prod.snd).foldl Change.apply []

/-- The table is there with these columns. -/
def Schema.has (s : Schema) (table : String) (columns : List String) : Bool :=
  match s.lookup table with
  | none => false
  | some there => columns.all fun c => there.contains c

structure RegistryItem where
  id : Int
  createdAt : Int
  updatedAt : Int
  merchantID : Int
  key : String
  value : String
  description : String
  deriving DecidableEq, Repr

structure World where
  api : MerchantAPI.World
  registries : Table Int RegistryItem RegistryItem.id
  subscriptions : Table Int MerchantSubscription MerchantSubscription.id
  transactions : Table Int TransactionRow TransactionRow.id
  balances : Table BalanceKey BalanceRow BalanceRow.key

inductive Write where
  | deleteTokens (entityType : TokenType) (entityID : Int)
  | deleteWalletLocks (merchantID : Int)
  | deleteDerivedAddresses (merchantID : Int)
  | deleteXpubWallets (merchantID : Int)
  | deleteCollectors (merchantID : Int)
  | deleteMerchantAddresses (merchantID : Int)
  | deletePaymentLinks (merchantID : Int)
  | deleteRegistries (merchantID : Int)
  | cancelSubscriptions (merchantID : Int)
  | softDeleteMerchant (id : Int)
  | softDeleteMerchantsOf (creatorID : Int)
  | deleteUser (id : Int)
  deriving DecidableEq, Repr

inductive Stmt where
  | merchantExists (id : Int)
  | isSuperAdmin (userID : Int)
  | listMerchantIDs (creatorID : Int)
  | write (x : Write)
  deriving DecidableEq, Repr

@[reducible] def Reply : Stmt → Type
  | .merchantExists _ => Except Err Bool
  | .isSuperAdmin _ => Except Err Bool
  | .listMerchantIDs _ => Except Err (List Int)
  | .write _ => Except Err Unit

/-- What the surroundings decide at one step. A listing may break off after some
rows, which its caller does not ask about. -/
structure Env where
  fate : Fate := .done
  now : Int := 0
  breaksOff : Option ℕ := none
  deriving DecidableEq, Repr

/-- The table and the columns a write names. -/
def Write.names : Write → String × List String
  | .deleteTokens .. => ("api_tokens", ["entity_type", "entity_id"])
  | .deleteWalletLocks _ => ("wallet_locks", ["merchant_id"])
  | .deleteDerivedAddresses _ => ("derived_addresses", ["merchant_id"])
  | .deleteXpubWallets _ => ("xpub_wallets", ["merchant_id"])
  | .deleteCollectors _ => ("evm_collector_wallets", ["merchant_id"])
  | .deleteMerchantAddresses _ => ("merchant_addresses", ["merchant_id"])
  | .deletePaymentLinks _ => ("payment_links", ["merchant_id"])
  | .deleteRegistries _ => ("registries", ["merchant_id"])
  | .cancelSubscriptions _ => ("merchant_subscriptions", ["status", "updated_at", "merchant_id"])
  | .softDeleteMerchant _ => ("merchants", ["deleted_at", "updated_at", "id"])
  | .softDeleteMerchantsOf _ => ("merchants", ["deleted_at", "updated_at", "creator_id"])
  | .deleteUser _ => ("users", ["id"])

def Stmt.names : Stmt → String × List String
  | .merchantExists _ => ("merchants", ["id", "deleted_at"])
  | .isSuperAdmin _ => ("users", ["is_super_admin", "id"])
  | .listMerchantIDs _ => ("merchants", ["id", "creator_id"])
  | .write x => x.names

def Stmt.runs (s : Stmt) : Bool := schema.has s.names.1 s.names.2

namespace World

variable (w : World)

/-- `id = $1 and deleted_at is null` -/
def merchantExists (id : Int) : Bool :=
  w.api.merchants.rows.any fun m => m.id = id && m.deletedAt.isNone

/-- `coalesce(is_super_admin, false)` -/
def isSuperAdmin (userID : Int) : Option Bool :=
  (w.api.users.get userID).map fun u => u.isSuperAdmin.getD false

/-- Deleted merchants are among them. -/
def merchantIDs (creatorID : Int) : List Int :=
  (w.api.merchants.rows.filter fun m => m.creatorID = creatorID).map Merchant.id

def listMerchantIDs (env : Env) (creatorID : Int) : List Int :=
  match env.breaksOff with
  | none => w.merchantIDs creatorID
  | some k => (w.merchantIDs creatorID).take k

def softDeleted (now : Int) (m : Merchant) : Merchant :=
  { m with deletedAt := some now, updatedAt := now }

theorem softDeleted_id (now : Int) (m : Merchant) : (softDeleted now m).id = m.id := rfl

def cancelled (now : Int) (r : MerchantSubscription) : MerchantSubscription :=
  { r with status := .cancelled, updatedAt := now }

theorem cancelled_id (now : Int) (r : MerchantSubscription) : (cancelled now r).id = r.id := rfl

/-- Every wallet that is left is not referred to, or not of the merchant. -/
def walletsFit (merchantID : Int) : Bool :=
  w.api.xpubWallets.rows.all fun x =>
    x.merchantID ≠ merchantID || w.api.walletUnreferenced x.id

def writeFits : Write → Bool
  | .deleteXpubWallets m => w.walletsFit m
  | _ => true

def effect (x : Write) (env : Env) (w : World) : World :=
  match x with
  | .deleteTokens entityType entityID =>
      { w with api := { w.api with
        tokens := w.api.tokens.deleteWhere fun t =>
          t.entityType = entityType && t.entityID = entityID } }
  | .deleteDerivedAddresses m =>
      { w with api := { w.api with
        derivedAddresses := w.api.derivedAddresses.deleteWhere fun a => a.merchantID = m } }
  | .deleteXpubWallets m =>
      { w with api := { w.api with
        xpubWallets := w.api.xpubWallets.deleteWhere fun x => x.merchantID = m } }
  | .deleteCollectors m =>
      { w with api := { w.api with
        collectors := w.api.collectors.deleteWhere fun c => c.merchantID = m } }
  | .deletePaymentLinks m =>
      { w with api := { w.api with links := w.api.links.deleteWhere fun l => l.merchantID = m } }
  | .deleteRegistries m =>
      { w with registries := w.registries.deleteWhere fun r => r.merchantID = m }
  | .cancelSubscriptions m =>
      { w with
        subscriptions := w.subscriptions.updateWhere
          (fun r => r.merchantID = m && r.status.isOpen) (cancelled env.now)
          (cancelled_id env.now) }
  | .softDeleteMerchant id =>
      { w with api := { w.api with
        merchants := w.api.merchants.updateWhere (fun m => m.id = id) (softDeleted env.now)
          (softDeleted_id env.now) } }
  | .softDeleteMerchantsOf creatorID =>
      { w with api := { w.api with
        merchants := w.api.merchants.updateWhere
          (fun m => m.creatorID = creatorID && m.deletedAt.isNone) (softDeleted env.now)
          (softDeleted_id env.now) } }
  | .deleteUser id =>
      { w with api := { w.api with users := w.api.users.deleteWhere fun u => u.id = id } }
  -- tables of which the schema has nothing left
  | .deleteWalletLocks _ => w
  | .deleteMerchantAddresses _ => w

def answered {α : Type} (s : Stmt) (env : Env) (x : Except Err α) : Except Err α :=
  if s.runs = true ∧ env.fate = .done then x else .error (Err.of .database)

def answer (env : Env) (w : World) : (s : Stmt) → Reply s
  | .merchantExists id => answered (.merchantExists id) env (.ok (w.merchantExists id))
  | .isSuperAdmin u => answered (.isSuperAdmin u) env (noRows (w.isSuperAdmin u))
  | .listMerchantIDs u => answered (.listMerchantIDs u) env (.ok (w.listMerchantIDs env u))
  | .write x => answered (.write x) env
      (if w.writeFits x then .ok () else .error (Err.of .database))

end World

/-- Every statement commits by itself. -/
def engine : Engine Stmt Reply Env World Empty where
  reply s env w := w.answer env s
  effect s env _ w :=
    match s with
    | .write x =>
        if s.runs = true ∧ env.fate ≠ .refused ∧ w.writeFits x = true then w.effect x env else w
    | _ => w
  lasting _ _ w := w
  locks _ _ _ := []
  opens env := env.fate = .done
  lands env := env.fate ≠ .refused
  acknowledged env := env.fate = .done

abbrev DeletionCall (α : Type) := Prog (Cmd Stmt) (Answer Reply) Err α

abbrev query := @onPool Stmt Reply Err

def exec (x : Write) (message : String) : DeletionCall Unit := do
  let done ← query (.write x)
  succeed (wrapErr message done)

def adminCleanMerchantData (merchantID : Int) : DeletionCall Unit := do
  exec (.deleteTokens .merchant merchantID) "failed to delete api tokens"
  exec (.deleteWalletLocks merchantID) "failed to delete wallet locks"
  exec (.deleteDerivedAddresses merchantID) "failed to delete derived addresses"
  exec (.deleteXpubWallets merchantID) "failed to delete xpub wallets"
  exec (.deleteCollectors merchantID) "failed to delete evm collector wallets"
  exec (.deleteMerchantAddresses merchantID) "failed to delete merchant addresses"
  exec (.deletePaymentLinks merchantID) "failed to delete payment links"
  exec (.deleteRegistries merchantID) "failed to delete registries"
  exec (.cancelSubscriptions merchantID) "failed to cancel subscriptions"

def adminDeleteMerchant (merchantID : Int) : DeletionCall Unit := do
  let found ← query (.merchantExists merchantID)
  let there ← succeed (wrapErr "failed to check merchant" found)
  if there then do
    adminCleanMerchantData merchantID
    exec (.softDeleteMerchant merchantID) "failed to delete merchant"
  else .fail (Err.new "merchant not found")

def adminDeleteUser (userID : Int) : DeletionCall Unit := do
  let admin ← query (.isSuperAdmin userID)
  match admin with
  | .error _ => .fail (Err.new "user not found")
  | .ok true => .fail (Err.new "cannot delete a super admin user")
  | .ok false => do
      let listed ← query (.listMerchantIDs userID)
      let merchantIDs ← succeed (wrapErr "failed to list user merchants" listed)
      Prog.each (fun mid => (adminCleanMerchantData mid).mapError
        (Err.wrap ("failed to clean merchant " ++ toString mid))) merchantIDs
      exec (.deleteTokens .user userID) "failed to delete user api tokens"
      exec (.softDeleteMerchantsOf userID) "failed to soft-delete user merchants"
      exec (.deleteUser userID) "failed to delete user"

end Deletion

end CryptoLink
