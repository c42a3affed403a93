import CryptoLink.Merchants.Deletion

/-!
# Deletions

The migrations dropped two of the tables that a deletion still goes through, the
second of nine among them. So no merchant is ever cleaned, and what the first
statement deleted stays deleted.
-/

namespace CryptoLink

open KeyedTables ReadCommitted StatementPrograms Engine Subscription MerchantAPI

namespace Deletion

/-- Nothing is left that the merchant operated with. -/
structure Cleaned (m : Int) (w : World) : Prop where
  tokens : ∀ t ∈ w.api.tokens.rows, ¬ (t.entityType = .merchant ∧ t.entityID = m)
  derivedAddresses : ∀ a ∈ w.api.derivedAddresses.rows, a.merchantID ≠ m
  xpubWallets : ∀ x ∈ w.api.xpubWallets.rows, x.merchantID ≠ m
  collectors : ∀ c ∈ w.api.collectors.rows, c.merchantID ≠ m
  links : ∀ l ∈ w.api.links.rows, l.merchantID ≠ m
  registries : ∀ r ∈ w.registries.rows, r.merchantID ≠ m

/-- From `w` to `w'` the merchant was deleted and its books were kept. -/
structure MerchantGone (m : Int) (w w' : World) : Prop where
  softDeleted : ∀ r ∈ w'.api.merchants.rows, r.id = m → r.deletedAt ≠ none
  cleaned : Cleaned m w'
  payments : w'.api.payments = w.api.payments
  transactions : w'.transactions = w.transactions
  balances : w'.balances = w.balances

structure UserGone (u : Int) (w w' : World) : Prop where
  user : ∀ r ∈ w'.api.users.rows, r.id ≠ u
  merchants : ∀ r ∈ w.api.merchants.rows, r.creatorID = u → MerchantGone r.id w w'

inductive Target where
  | merchant (id : Int)
  | user (id : Int)

namespace Target

def delete : Target → DeletionCall Unit
  | .merchant m => adminDeleteMerchant m
  | .user u => adminDeleteUser u

def Gone : Target → World → World → Prop
  | .merchant m => MerchantGone m
  | .user u => UserGone u

end Target

/-- The call deletes everything, or fails and changes no row. -/
def EverythingOrNothing (gone : World → World → Prop) (w : World) :
    Except Err Unit × ℕ × View Stmt Env World Empty → Prop
  | (.ok _, _, v) => gone w v.world
  | (.error _, _, v) => v.world = w

def Target.AllOrNothing (t : Target) (envs : ℕ → Env) (w : World) : Prop :=
  EverythingOrNothing t.Gone w (engine.alone envs t.delete 0 ⟨w, .idle⟩)

def HasTokens (entityType : TokenType) (id : Int) (w : World) : Prop :=
  ∃ t ∈ w.api.tokens.rows, t.entityType = entityType ∧ t.entityID = id

def HasLiveMerchants (u : Int) (w : World) : Prop :=
  ∃ m ∈ w.api.merchants.rows, m.creatorID = u ∧ m.deletedAt = none

/-- Cleaning the merchant, with its first statement `env`, deletes no token. -/
def TokensSpared (env : Env) (m : Int) (w : World) : Prop :=
  env.fate ≠ .refused → ¬ HasTokens .merchant m w

/-- The last three statements of a deletion change nothing, or all go through
and the user's merchants have nothing left. -/
def UserSpared (envs : ℕ → Env) (u : Int) (w : World) : Prop :=
  (envs 2).fate = .refused ∨
  (¬ HasTokens .user u w ∧ ((envs 2).fate ≠ .done ∨ (envs 3).fate = .refused ∨
    (¬ HasLiveMerchants u w ∧ ((envs 3).fate ≠ .done ∨ (envs 4).fate = .refused)))) ∨
  ((envs 2).fate = .done ∧ (envs 3).fate = .done ∧ (envs 4).fate = .done ∧
    ∀ r ∈ w.api.merchants.rows, r.creatorID = u → Cleaned r.id w)

/-- The deletion of a merchant does not get to its tokens, or there are none; the
same for the first merchant of a user. -/
def Target.Spared (t : Target) (envs : ℕ → Env) (w : World) : Prop :=
  match t with
  | .merchant m => (envs 0).fate = .done → w.merchantExists m = true → TokensSpared (envs 1) m w
  | .user u => (envs 0).fate = .done → w.isSuperAdmin u = some false → (envs 1).fate = .done →
      match w.listMerchantIDs (envs 1) u with
      | m :: _ => TokensSpared (envs 2) m w
      | [] => UserSpared envs u w

theorem schema_has_names (x : Write) : schema.has x.names.1 x.names.2 = true ↔
    (∀ m, x ≠ .deleteWalletLocks m) ∧ ∀ m, x ≠ .deleteMerchantAddresses m := by
  cases x with
  | deleteWalletLocks m =>
    refine iff_of_false (fun h => by cases h) ?_
    exact fun h => h.1 m rfl
  | deleteMerchantAddresses m =>
    refine iff_of_false (fun h => by cases h) ?_
    exact fun h => h.2 m rfl
  | _ => exact iff_of_true rfl ⟨fun _ h => (by cases h), fun _ h => (by cases h)⟩

theorem read_runs (s : Stmt) (h : ∀ x, s ≠ .write x) : s.runs = true := by
  cases s with
  | write x => exact absurd rfl (h x)
  | _ => rfl

section Runs

variable {envs : ℕ → Env} {w : World} {n : ℕ}

theorem alone_exec {x : Write} (message : String) (hruns : (Stmt.write x).runs = true)
    (hfits : w.writeFits x = true) : engine.alone envs (exec x message) n ⟨w, .idle⟩ =
      (if (envs n).fate = .done then .ok () else .error ((Err.of .database).wrap message), n + 1,
        ⟨if (envs n).fate = .refused then w else w.effect x (envs n), .idle⟩) := by
  have hanswer : wrapErr message (engine.reply (.write x) (envs n) w) =
      if (envs n).fate = .done then .ok () else .error ((Err.of .database).wrap message) := by
    by_cases hdone : (envs n).fate = .done
    · simp [engine, World.answer, World.answered, hruns, hdone, hfits]
    · simp [engine, World.answer, World.answered, hdone, wrapErr, Except.mapError]
  have hworld : engine.autocommit (.write x) (envs n) w =
      if (envs n).fate = .refused then w else w.effect x (envs n) := by
    by_cases hrefused : (envs n).fate = .refused
    · simp [Engine.autocommit, engine, hrefused]
    · simp [Engine.autocommit, engine, hruns, hrefused, hfits]
  rw [exec, Prog.bind_eq, Engine.alone_onPool_bind, succeed, alone_ofExcept, hanswer, hworld]

/-- A write to a table that is gone. -/
theorem alone_exec_missing {x : Write} (message : String) (hmissing : (Stmt.write x).runs = false) :
    engine.alone envs (exec x message) n ⟨w, .idle⟩ =
      (.error ((Err.of .database).wrap message), n + 1, ⟨w, .idle⟩) := by
  have hanswer : wrapErr message (engine.reply (.write x) (envs n) w) =
      .error ((Err.of .database).wrap message) := by
    simp [engine, World.answer, World.answered, hmissing, wrapErr, Except.mapError]
  have hworld : engine.autocommit (.write x) (envs n) w = w := by
    simp [Engine.autocommit, engine, hmissing]
  rw [exec, Prog.bind_eq, Engine.alone_onPool_bind, succeed, alone_ofExcept, hanswer, hworld]

/-- Cleaning a merchant fails at its second statement at the latest. -/
theorem alone_adminCleanMerchantData (m : Int) :
    ∃ e k, engine.alone envs (adminCleanMerchantData m) n ⟨w, .idle⟩ =
      (.error e, k, ⟨if (envs n).fate = .refused then w
        else w.effect (.deleteTokens .merchant m) (envs n), .idle⟩) := by
  rw [adminCleanMerchantData, Prog.bind_eq, alone_bind,
    alone_exec (x := .deleteTokens .merchant m) _ rfl rfl]
  by_cases hdone : (envs n).fate = .done
  · rw [if_pos hdone]
    refine ⟨(Err.of .database).wrap "failed to delete wallet locks", n + 2, ?_⟩
    dsimp only
    rw [Prog.bind_eq, alone_bind, alone_exec_missing (x := .deleteWalletLocks m) _ rfl]
  · rw [if_neg hdone]
    exact ⟨_, _, rfl⟩

/-- What a merchant's deletion comes to. -/
theorem alone_adminDeleteMerchant (m : Int) :
    ∃ e k, engine.alone envs (adminDeleteMerchant m) 0 ⟨w, .idle⟩ =
      (.error e, k, ⟨if (envs 0).fate = .done ∧ w.merchantExists m = true ∧
        (envs 1).fate ≠ .refused then w.effect (.deleteTokens .merchant m) (envs 1) else w,
          .idle⟩) := by
  have hruns : (Stmt.merchantExists m).runs = true := read_runs _ fun _ h => by cases h
  have hstill : engine.autocommit (.merchantExists m) (envs 0) w = w := rfl
  rw [adminDeleteMerchant, Prog.bind_eq, Engine.alone_onPool_bind, hstill]
  by_cases hdone : (envs 0).fate = .done
  · have hanswer : engine.reply (.merchantExists m) (envs 0) w = .ok (w.merchantExists m) := by
      simp [engine, World.answer, World.answered, hruns, hdone]
    rw [hanswer]
    cases hthere : w.merchantExists m with
    | false =>
      refine ⟨Err.new "merchant not found", 1, ?_⟩
      rw [if_neg fun h => by cases h.2.1]
      rfl
    | true =>
      obtain ⟨e, k, hclean⟩ := @alone_adminCleanMerchantData envs w 1 m
      refine ⟨e, k, ?_⟩
      show engine.alone envs ((adminCleanMerchantData m).bind _) 1 ⟨w, .idle⟩ = _
      rw [alone_bind, hclean]
      by_cases hrefused : (envs 1).fate = .refused
      · simp [hrefused]
      · simp [hdone, hrefused]
  · have hanswer : engine.reply (.merchantExists m) (envs 0) w = .error (Err.of .database) := by
      simp [engine, World.answer, World.answered, hdone]
    rw [hanswer]
    refine ⟨(Err.of .database).wrap "failed to check merchant", 1, ?_⟩
    rw [if_neg fun h => hdone h.1]
    rfl

end Runs

section Changes

variable {w : World} {env : Env}

theorem tokens_kept_iff {entityType : TokenType} {id : Int} :
    (w.api.tokens.deleteWhere fun t => t.entityType = entityType && t.entityID = id) =
      w.api.tokens ↔ ¬ HasTokens entityType id w := by
  rw [Table.deleteWhere_eq_self_iff, HasTokens]
  simp only [Bool.and_eq_false_iff, decide_eq_false_iff_not, not_exists, not_and]
  constructor
  · rintro h t ht hsame
    exact (h t ht).resolve_left (not_not_intro hsame)
  · intro h t ht
    by_cases hsame : t.entityType = entityType
    · exact .inr (h t ht hsame)
    · exact .inl hsame

theorem merchants_kept_iff {u now : Int} :
    w.api.merchants.updateWhere (fun m => m.creatorID = u && m.deletedAt.isNone)
      (World.softDeleted now) (World.softDeleted_id now) = w.api.merchants ↔
        ¬ HasLiveMerchants u w := by
  have hwrites : ∀ m : Merchant, (m.creatorID = u && m.deletedAt.isNone) = true →
      World.softDeleted now m ≠ m := by
    intro m hm hsame
    rw [Bool.and_eq_true, Option.isNone_iff_eq_none] at hm
    have hdeleted := congrArg Merchant.deletedAt hsame
    rw [hm.2] at hdeleted
    cases hdeleted
  rw [Table.updateWhere_eq_self_iff hwrites, HasLiveMerchants]
  simp only [Bool.and_eq_false_iff, decide_eq_false_iff_not, not_exists, not_and]
  constructor
  · rintro h m hm hcreator hlive
    rcases h m hm with hother | hdeleted
    · exact hother hcreator
    · rw [hlive] at hdeleted
      cases hdeleted
  · intro h m hm
    by_cases hcreator : m.creatorID = u
    · right
      cases hlive : m.deletedAt with
      | none => exact absurd hlive (h m hm hcreator)
      | some t => rfl
    · exact .inl hcreator

theorem deleteTokens_eq_self_iff {entityType : TokenType} {id : Int} :
    w.effect (.deleteTokens entityType id) env = w ↔ ¬ HasTokens entityType id w := by
  rw [← tokens_kept_iff]
  constructor
  · intro h
    exact congrArg (fun w => w.api.tokens) h
  · intro h
    rw [World.effect, h]

/-- What the first two of the last three statements of a user's deletion leave. -/
def withoutUser (u : Int) (env env' : Env) (w : World) : World :=
  (w.effect (.deleteTokens .user u) env).effect (.softDeleteMerchantsOf u) env'

theorem withoutUser_eq_self_iff {u : Int} {env' : Env} :
    withoutUser u env env' w = w ↔ ¬ HasTokens .user u w ∧ ¬ HasLiveMerchants u w := by
  constructor
  · intro h
    constructor
    · exact tokens_kept_iff.mp (congrArg (fun w => w.api.tokens) h)
    · exact merchants_kept_iff.mp (congrArg (fun w => w.api.merchants) h)
  · rintro ⟨htokens, hlive⟩
    rw [withoutUser, deleteTokens_eq_self_iff.mpr htokens, World.effect,
      merchants_kept_iff.mpr hlive]

end Changes

section Deletions

variable {envs : ℕ → Env} {w : World}

/-- A deletion that fails is all or nothing if it left the tables as they were. -/
theorem allOrNothing_of_failed {t : Target} {e : Err} {k : ℕ} {w' : World}
    (hrun : engine.alone envs t.delete 0 ⟨w, .idle⟩ = (.error e, k, ⟨w', .idle⟩)) :
    t.AllOrNothing envs w ↔ w' = w := by
  rw [Target.AllOrNothing, hrun]
  rfl

theorem merchant_allOrNothing_iff (m : Int) :
    (Target.merchant m).AllOrNothing envs w ↔ (Target.merchant m).Spared envs w := by
  obtain ⟨e, k, hrun⟩ := @alone_adminDeleteMerchant envs w m
  have hdelete : engine.alone envs (Target.merchant m).delete 0 ⟨w, .idle⟩ = _ := hrun
  rw [allOrNothing_of_failed hdelete, Target.Spared]
  by_cases hreached : (envs 0).fate = .done ∧ w.merchantExists m = true ∧ (envs 1).fate ≠ .refused
  · obtain ⟨hdone, hthere, hlands⟩ := hreached
    rw [if_pos ⟨hdone, hthere, hlands⟩, deleteTokens_eq_self_iff]
    constructor
    · exact fun h _ _ _ => h
    · exact fun h => h hdone hthere hlands
  · rw [if_neg hreached]
    refine iff_of_true rfl fun hdone hthere hlands => ?_
    exact absurd ⟨hdone, hthere, hlands⟩ hreached

/-- The last three statements for a user. -/
def finish (u : Int) : DeletionCall Unit :=
  (exec (.deleteTokens .user u) "failed to delete user api tokens").bind fun _ =>
    (exec (.softDeleteMerchantsOf u) "failed to soft-delete user merchants").bind fun _ =>
      exec (.deleteUser u) "failed to delete user"

def cleanAll (ids : List Int) : DeletionCall Unit :=
  Prog.each (fun mid => (adminCleanMerchantData mid).mapError
    (Err.wrap ("failed to clean merchant " ++ toString mid))) ids

theorem alone_adminDeleteUser (u : Int) (h : (envs 0).fate = .done)
    (hadmin : w.isSuperAdmin u = some false) (hlisted : (envs 1).fate = .done) :
    engine.alone envs (adminDeleteUser u) 0 ⟨w, .idle⟩ =
      engine.alone envs ((cleanAll (w.listMerchantIDs (envs 1) u)).bind fun _ => finish u) 2
        ⟨w, .idle⟩ := by
  have hfound : engine.reply (.isSuperAdmin u) (envs 0) w = .ok false := by
    have hruns : (Stmt.isSuperAdmin u).runs = true := read_runs _ fun _ h => by cases h
    simp [engine, World.answer, World.answered, hruns, h, hadmin, noRows]
  have hids : engine.reply (.listMerchantIDs u) (envs 1) w = .ok
    (w.listMerchantIDs (envs 1) u) := by
    have hruns : (Stmt.listMerchantIDs u).runs = true := read_runs _ fun _ h => by cases h
    simp [engine, World.answer, World.answered, hruns, hlisted]
  have hstill : engine.autocommit (.isSuperAdmin u) (envs 0) w = w := rfl
  have hstill' : engine.autocommit (.listMerchantIDs u) (envs 1) w = w := rfl
  rw [adminDeleteUser, Prog.bind_eq, Engine.alone_onPool_bind, hfound, hstill]
  dsimp only
  rw [Prog.bind_eq, Engine.alone_onPool_bind, hids, hstill']
  rfl

theorem alone_adminDeleteUser_stopped (u : Int)
    (h : ¬ ((envs 0).fate = .done ∧ w.isSuperAdmin u = some false ∧ (envs 1).fate = .done)) :
    ∃ e k, engine.alone envs (adminDeleteUser u) 0 ⟨w, .idle⟩ = (.error e, k, ⟨w, .idle⟩) := by
  have hstill : engine.autocommit (.isSuperAdmin u) (envs 0) w = w := rfl
  have hstill' : engine.autocommit (.listMerchantIDs u) (envs 1) w = w := rfl
  rw [adminDeleteUser, Prog.bind_eq, Engine.alone_onPool_bind, hstill]
  cases hfound : engine.reply (.isSuperAdmin u) (envs 0) w with
  | error e => exact ⟨_, _, rfl⟩
  | ok admin =>
    cases admin with
    | true => exact ⟨_, _, rfl⟩
    | false =>
      have hboth : (envs 0).fate = .done ∧ w.isSuperAdmin u = some false := by
        have hanswer : World.answered (.isSuperAdmin u) (envs 0) (noRows (w.isSuperAdmin u)) =
            .ok false := hfound
        rw [World.answered] at hanswer
        split at hanswer
        · rename_i hdone
          refine ⟨hdone.2, ?_⟩
          cases hadmin : w.isSuperAdmin u with
          | none =>
            rw [hadmin] at hanswer
            cases hanswer
          | some admin =>
            rw [hadmin] at hanswer
            cases hanswer
            rfl
        · cases hanswer
      have hlist : (envs 1).fate ≠ .done := fun hdone => h ⟨hboth.1, hboth.2, hdone⟩
      have hids : engine.reply (.listMerchantIDs u) (envs 1) w = .error (Err.of .database) := by
        simp [engine, World.answer, World.answered, hlist]
      refine ⟨(Err.of .database).wrap "failed to list user merchants", 2, ?_⟩
      dsimp only
      rw [Prog.bind_eq, Engine.alone_onPool_bind, hids, hstill']
      rfl

/-- The first merchant stops it. -/
theorem alone_cleanAll (m : Int) (ms : List Int) (p : DeletionCall Unit) (n : ℕ) :
    ∃ e k, engine.alone envs ((cleanAll (m :: ms)).bind fun _ => p) n ⟨w, .idle⟩ =
      (.error e, k, ⟨if (envs n).fate = .refused then w
        else w.effect (.deleteTokens .merchant m) (envs n), .idle⟩) := by
  obtain ⟨e, k, hclean⟩ := @alone_adminCleanMerchantData envs w n m
  refine ⟨e.wrap ("failed to clean merchant " ++ toString m), k, ?_⟩
  rw [alone_bind, cleanAll, Prog.each, alone_bind, alone_mapError, hclean]
  rfl

theorem cleaned_iff {u m : Int} {env env' env'' : Env} :
    Cleaned m ((withoutUser u env env' w).effect (.deleteUser u) env'') ↔ Cleaned m w := by
  constructor
  · intro h
    refine ⟨?_, h.derivedAddresses, h.xpubWallets, h.collectors, h.links, h.registries⟩
    intro t ht hmerchant
    refine h.tokens t (List.mem_filter.mpr ⟨ht, ?_⟩) hmerchant
    simp [hmerchant.1]
  · intro h
    refine ⟨?_, h.derivedAddresses, h.xpubWallets, h.collectors, h.links, h.registries⟩
    intro t ht
    exact h.tokens t (List.mem_filter.mp ht).1

/-- When all went through, it comes to what the merchants had left. -/
theorem userGone_iff {u : Int} {env env' env'' : Env} :
    UserGone u w ((withoutUser u env env' w).effect (.deleteUser u) env'') ↔
      ∀ r ∈ w.api.merchants.rows, r.creatorID = u → Cleaned r.id w := by
  constructor
  · intro h r hr hcreator
    exact cleaned_iff.mp (h.merchants r hr hcreator).cleaned
  · intro h
    constructor
    · intro r hr
      have hkept := (List.mem_filter.mp hr).2
      simpa using hkept
    · intro r hr hcreator
      refine ⟨?_, cleaned_iff.mpr (h r hr hcreator), rfl, rfl, rfl⟩
      intro r' hr' hid
      obtain ⟨x, hx, rfl⟩ := List.mem_map.mp hr'
      by_cases hlive : (x.creatorID = u && x.deletedAt.isNone) = true
      · rw [if_pos hlive]
        intro h
        cases h
      · rw [if_neg hlive] at hid ⊢
        have hsame : x = r := Table.eq_of_key_eq hx hr hid
        rw [hsame] at hlive ⊢
        intro hnone
        rw [hcreator, hnone] at hlive
        exact hlive (by simp)

/-- A user none of whose merchants was listed. -/
theorem finish_allOrNothing_iff {u : Int} (huser : (w.api.users.get u).isSome = true) :
    EverythingOrNothing (UserGone u) w (engine.alone envs (finish u) 2 ⟨w, .idle⟩) ↔
      UserSpared envs u w := by
  rw [finish, alone_bind, alone_exec (x := .deleteTokens .user u) _ rfl rfl]
  by_cases htokens : (envs 2).fate = .done
  swap
  · rw [if_neg htokens]
    show (if (envs 2).fate = .refused then w else w.effect (.deleteTokens .user u) (envs 2)) = w ↔ _
    by_cases hrefused : (envs 2).fate = .refused
    · rw [if_pos hrefused]
      exact iff_of_true rfl (.inl hrefused)
    · rw [if_neg hrefused, deleteTokens_eq_self_iff]
      constructor
      · exact fun hnone => .inr (.inl ⟨hnone, .inl htokens⟩)
      · rintro (h | ⟨hnone, -⟩ | ⟨h, -⟩)
        · exact absurd h hrefused
        · exact hnone
        · exact absurd h htokens
  have hlands : (envs 2).fate ≠ .refused := by
    rw [htokens]
    intro h
    cases h
  rw [if_pos htokens, if_neg hlands]
  dsimp only
  rw [alone_bind, alone_exec (x := .softDeleteMerchantsOf u) _ rfl rfl]
  by_cases hmerchants : (envs 3).fate = .done
  swap
  · rw [if_neg hmerchants]
    show (if (envs 3).fate = .refused then w.effect (.deleteTokens .user u) (envs 2)
      else withoutUser u (envs 2) (envs 3) w) = w ↔ _
    by_cases hrefused : (envs 3).fate = .refused
    · rw [if_pos hrefused, deleteTokens_eq_self_iff]
      constructor
      · exact fun hnone => .inr (.inl ⟨hnone, .inr (.inl hrefused)⟩)
      · rintro (h | ⟨hnone, -⟩ | ⟨-, h, -⟩)
        · exact absurd h hlands
        · exact hnone
        · exact absurd h hmerchants
    · rw [if_neg hrefused, withoutUser_eq_self_iff]
      constructor
      · rintro ⟨hnone, hlive⟩
        exact .inr (.inl ⟨hnone, .inr (.inr ⟨hlive, .inl hmerchants⟩)⟩)
      · rintro (h | ⟨hnone, h | h | ⟨hlive, -⟩⟩ | ⟨-, h, -⟩)
        · exact absurd h hlands
        · exact absurd htokens h
        · exact absurd h hrefused
        · exact ⟨hnone, hlive⟩
        · exact absurd h hmerchants
  have hlands' : (envs 3).fate ≠ .refused := by
    rw [hmerchants]
    intro h
    cases h
  rw [if_pos hmerchants, if_neg hlands']
  dsimp only
  rw [alone_exec (x := .deleteUser u) _ rfl rfl]
  by_cases hdone : (envs 4).fate = .done
  · have hlands'' : (envs 4).fate ≠ .refused := by
      rw [hdone]
      intro h
      cases h
    rw [if_pos hdone, if_neg hlands'']
    show UserGone u w ((withoutUser u (envs 2) (envs 3) w).effect (.deleteUser u) (envs 4)) ↔ _
    rw [userGone_iff]
    constructor
    · exact fun hcleaned => .inr (.inr ⟨htokens, hmerchants, hdone, hcleaned⟩)
    · rintro (h | ⟨-, h | h | ⟨-, h | h⟩⟩ | ⟨-, -, -, hcleaned⟩)
      · exact absurd h hlands
      · exact absurd htokens h
      · exact absurd h hlands'
      · exact absurd hmerchants h
      · exact absurd h hlands''
      · exact hcleaned
  · rw [if_neg hdone]
    show (if (envs 4).fate = .refused then withoutUser u (envs 2) (envs 3) w
      else (withoutUser u (envs 2) (envs 3) w).effect (.deleteUser u) (envs 4)) = w ↔ _
    by_cases hrefused : (envs 4).fate = .refused
    · rw [if_pos hrefused, withoutUser_eq_self_iff]
      constructor
      · rintro ⟨hnone, hlive⟩
        exact .inr (.inl ⟨hnone, .inr (.inr ⟨hlive, .inr hrefused⟩)⟩)
      · rintro (h | ⟨hnone, h | h | ⟨hlive, -⟩⟩ | ⟨-, -, h, -⟩)
        · exact absurd h hlands
        · exact absurd htokens h
        · exact absurd h hlands'
        · exact ⟨hnone, hlive⟩
        · exact absurd h hdone
    · rw [if_neg hrefused]
      apply iff_of_false
      · intro hsame
        obtain ⟨user, hget⟩ := Option.isSome_iff_exists.mp huser
        obtain ⟨hmem, hid⟩ := Table.get_eq_some hget
        have htable : w.api.users.deleteWhere (fun u' => u'.id = u) = w.api.users :=
          congrArg (fun w => w.api.users) hsame
        have hkept := Table.deleteWhere_eq_self_iff.mp htable user hmem
        simp [hid] at hkept
      · rintro (h | ⟨-, h | h | ⟨-, h | h⟩⟩ | ⟨-, -, h, -⟩)
        · exact absurd h hlands
        · exact absurd htokens h
        · exact absurd h hlands'
        · exact absurd hmerchants h
        · exact absurd h hrefused
        · exact absurd h hdone

theorem user_allOrNothing_iff (u : Int) :
    (Target.user u).AllOrNothing envs w ↔ (Target.user u).Spared envs w := by
  by_cases hreached : (envs 0).fate = .done ∧ w.isSuperAdmin u = some false ∧ (envs 1).fate = .done
  · obtain ⟨hdone, hadmin, hlisted⟩ := hreached
    have hrun : engine.alone envs (Target.user u).delete 0 ⟨w, .idle⟩ = _ :=
      alone_adminDeleteUser u hdone hadmin hlisted
    have hspared : (Target.user u).Spared envs w ↔
        match w.listMerchantIDs (envs 1) u with
        | m :: _ => TokensSpared (envs 2) m w
        | [] => UserSpared envs u w :=
      ⟨fun h => h hdone hadmin hlisted, fun h _ _ _ => h⟩
    rw [hspared]
    cases hids : w.listMerchantIDs (envs 1) u with
    | nil =>
      have huser : (w.api.users.get u).isSome = true := by
        obtain ⟨user, hget, -⟩ := Option.map_eq_some_iff.mp hadmin
        rw [hget]
        rfl
      rw [Target.AllOrNothing, hrun, hids]
      exact finish_allOrNothing_iff huser
    | cons m ms =>
      obtain ⟨e, k, hclean⟩ := @alone_cleanAll envs w m ms (finish u) 2
      rw [hids, hclean] at hrun
      rw [allOrNothing_of_failed hrun]
      show _ ↔ TokensSpared (envs 2) m w
      by_cases hrefused : (envs 2).fate = .refused
      · rw [if_pos hrefused]
        exact iff_of_true rfl fun hlands => absurd hrefused hlands
      · rw [if_neg hrefused, deleteTokens_eq_self_iff]
        exact ⟨fun h _ => h, fun h => h hrefused⟩
  · obtain ⟨e, k, hrun⟩ := alone_adminDeleteUser_stopped u hreached
    rw [allOrNothing_of_failed (t := .user u) hrun]
    refine iff_of_true rfl fun hdone hadmin hlisted => ?_
    exact absurd ⟨hdone, hadmin, hlisted⟩ hreached

/-- On the schema of all migrations a deletion is all or nothing exactly if it is
spared: as a rule, if it does not get to the tokens or there are none. -/
theorem deletion_all_or_nothing_iff (t : Target) (envs : ℕ → Env) (w : World) :
    t.AllOrNothing envs w ↔ t.Spared envs w := by
  cases t with
  | merchant m => exact merchant_allOrNothing_iff m
  | user u => exact user_allOrNothing_iff u

end Deletions

/-- One user with one merchant and its API token. -/
def oneMerchant : World where
  api := { MerchantAPI.World.empty with
    users := ⟨[⟨1, none⟩], List.nodup_singleton _⟩
    merchants := ⟨[⟨5, "uuid", 0, none, "Shop", "https://shop", 1, []⟩], List.nodup_singleton _⟩
    tokens := ⟨[⟨9, .merchant, 5, 0, "secret", "token", "uuid"⟩], List.nodup_singleton _⟩ }
  registries := .empty
  subscriptions := .empty
  transactions := .empty
  balances := .empty

/-- With nothing failing but what the schema lacks, the token is gone and the
merchant is not. -/
theorem deletion_is_cut_short :
    ¬ ∀ (t : Target) (envs : ℕ → Env) (w : World), t.AllOrNothing envs w := by
  intro h
  have hspared := (merchant_allOrNothing_iff 5).mp (h (.merchant 5) (fun _ => {}) oneMerchant)
  refine hspared rfl (by decide) (fun h => by cases h) ⟨_, List.mem_singleton.mpr rfl, rfl, rfl⟩

end Deletion

end CryptoLink
