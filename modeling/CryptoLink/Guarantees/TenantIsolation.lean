import CryptoLink.Guarantees.SettingsUpdates
import CryptoLink.Merchants.Discretion

/-!
# Tenant isolation

Requests run side by side, one statement at a time, and any of them may be cut
short. As long as none of them has to do with a merchant, the merchant owns what
it owned, and no response shows a row of it.
-/

namespace CryptoLink

namespace MerchantAPI

open KeyedTables ReadCommitted StatementPrograms System

instance (t : Titles) (h : Holdings) (c : Credentials) : Decidable (SpeaksFor t h c) := by
  delta SpeaksFor
  induction c using Credentials.casesOn <;> infer_instance

instance (s : Server) (b : Int) (h : Holdings) (route : Route) :
    Decidable (s.leadsTo b h route) := by
  delta Server.leadsTo
  induction route using Route.casesOn <;> infer_instance

instance (s : Server) (t : Titles) (b : Int) (h : Holdings) : DecidablePred (s.Apart t b h) :=
  fun req => decidable_of_iff
    (¬ SpeaksFor t h req.credentials ∧ ¬ s.leadsTo b h req.route)
    ⟨fun hreq => ⟨hreq.1, hreq.2⟩, fun hreq => ⟨hreq.credentials, hreq.route⟩⟩

/-- Requests to the merchant API, each ending with its response. -/
def Server.api (s : Server) :
    System Stmt Reply Env World Empty (Except Err Response) Request Empty where
  engine := engine
  program req := (s.serve req).reported
  move m := m.elim

/-- Ids are given out as titled, and a request that starts has nothing to do with `b`. -/
def Server.Elsewhere (s : Server) (t : Titles) (b : Int) (h : Holdings)
    (cfg : Config Stmt Reply Env World Empty (Except Err Response) Request)
    (e : Event Env Empty Request) : Prop :=
  Admitted s.api t.admits cfg e ∧ Starts (s.Apart t b h) e

instance (s : Server) (t : Titles) (b : Int) (h : Holdings)
    (cfg : Config Stmt Reply Env World Empty (Except Err Response) Request)
    (e : Event Env Empty Request) : Decidable (s.Elsewhere t b h cfg e) :=
  inferInstanceAs (Decidable (_ ∧ _))

/-- The response of a request, once it has one. -/
def response (th : Thread Stmt Reply Env World Empty (Except Err Response) Request) :
    Option Response :=
  match th.prog with
  | .fail (.ok resp) => some resp
  | _ => none

theorem response_eq_some {th : Thread Stmt Reply Env World Empty (Except Err Response) Request}
    {resp : Response} (h : response th = some resp) : th.prog = .fail (.ok resp) := by
  rw [response] at h
  split at h
  · rename_i hprog
    cases h
    exact hprog
  · cases h

/-- If the request ends with a response, the response shows no row of `b`. -/
def EndsHiding (b : Int) (x : Except (Except Err Response) Unit) : Prop :=
  ∀ resp, x = .error (.ok resp) → resp.hides b

theorem sound_sparing (s : Server) (t : Titles) (b : Int) (h : Holdings) :
    (sparing t b h).Sound s.api where
  stmt _ _ _ _ hspares hadmits hw := ⟨trivial, hw.autocommit hspares hadmits⟩
  move m := m.elim

theorem kept_elsewhere (s : Server) {t : Titles} {b : Int} {w : World} (ht : Titled t w)
    {es : List (Event Env Empty Request)}
    (hrun : s.api.Along (s.Elsewhere t b (w.rowsOf b)) ⟨w, []⟩ es) :
    (sparing t b (w.rowsOf b)).Kept s.api (fun _ x _ => EndsHiding b x)
      (s.api.run ⟨w, []⟩ es) := by
  refine Terms.kept_run (sound_sparing s t b (w.rowsOf b)) ?_ ?_ ⟨ht, rfl⟩ hrun
  · intro _ _ resp hresp
    cases hresp
  · intro req hreq w'
    exact (discreet_serve s hreq req).reported w'

/-- Whatever requests of others do, in any order and cut short anywhere, a merchant's rows
stay as they are. -/
theorem rows_untouched_by_others (s : Server) (t : Titles) (b : Int) (w : World)
    (ht : Titled t w) (es : List (Event Env Empty Request))
    (hrun : s.api.Along (s.Elsewhere t b (w.rowsOf b)) ⟨w, []⟩ es) :
    (s.api.run ⟨w, []⟩ es).world.rowsOf b = w.rowsOf b :=
  (kept_elsewhere s ht hrun).holds.rows

/-- No response to them shows a row of the merchant. -/
theorem rows_hidden_from_others (s : Server) (t : Titles) (b : Int) (w : World)
    (ht : Titled t w) (es : List (Event Env Empty Request))
    (hrun : s.api.Along (s.Elsewhere t b (w.rowsOf b)) ⟨w, []⟩ es) :
    ∀ th ∈ (s.api.run ⟨w, []⟩ es).threads, ∀ resp, response th = some resp →
      ∀ x ∈ resp.rendered, x.owner ≠ some b := by
  intro th hth resp hresp
  exact (kept_elsewhere s ht hrun).outcome hth (response_eq_some hresp) resp rfl

namespace Neighbours

def merchants : List Merchant :=
  [⟨1, "m-1", 0, none, "shop", "https://shop.example", 7, []⟩,
    ⟨2, "m-2", 0, none, "cafe", "https://cafe.example", 8, []⟩]

def tokens : List APIToken :=
  [⟨1, .user, 7, 0, "user-7", "", "t-1"⟩, ⟨2, .merchant, 1, 0, "key-1", "till", "t-2"⟩,
    ⟨3, .merchant, 2, 0, "key-2", "till", "t-3"⟩]

def tables : World :=
  { World.empty with
    users := ⟨[⟨7, none⟩, ⟨8, none⟩], by decide⟩
    merchants := ⟨merchants, by decide⟩
    tokens := ⟨tokens, by decide⟩ }

def titles : Titles where
  token id := if id = 1 then none else if id = 3 then some 2 else some 1
  wallet _ := 1
  merchant uuid := if uuid = "m-2" then 2 else 1
  user _ := 7

theorem titled : Titled titles tables where
  merchants := by decide
  serials := by decide
  tokens := by decide
  users := by decide
  wallets := by decide
  addresses := by decide

/-- A user reaches for the neighbour's token and merchant, and makes a token of its own. -/
def events : List (Event Env Empty Request) :=
  [.start ⟨.dashboard (some 7) "", "m-1", .deleteMerchantTokens "t-3"⟩,
    .start ⟨.dashboard none "user-7", "m-1", .createMerchantToken (some "second till")⟩,
    .start ⟨.dashboard (some 7) "", "m-2", .deleteMerchant⟩] ++
  (List.range 8).flatMap fun n =>
    [.exec 0 {}, .exec 1 { id := 4, text := toString n }, .exec 2 {}]

theorem neighbour_untouched :
    (TwoRequests.server.api.run ⟨tables, []⟩ events).world.tokens.rows.length = 4 ∧
    (TwoRequests.server.api.run ⟨tables, []⟩ events).world.rowsOf 2 = tables.rowsOf 2 :=
  ⟨by decide +kernel,
    rows_untouched_by_others TwoRequests.server titles 2 tables titled events (by decide +kernel)⟩

theorem neighbour_hidden :
    (TwoRequests.server.api.run ⟨tables, []⟩ events).threads.map
      (fun th => (response th).map Response.code) = [some 404, some 201, some 400] ∧
    ∀ th ∈ (TwoRequests.server.api.run ⟨tables, []⟩ events).threads, ∀ resp,
      response th = some resp → ∀ x ∈ resp.rendered, x.owner ≠ some 2 :=
  ⟨by decide +kernel,
    rows_hidden_from_others TwoRequests.server titles 2 tables titled events (by decide +kernel)⟩

end Neighbours

end MerchantAPI

end CryptoLink
