import CryptoLink.Library.PoolCalls
import CryptoLink.Marketing.Sequences

/-!
# Contacts and their consent

A checkout resolves the contact of an address: a new one is inserted, and merged
inside the statement where it is there by then; of one that was found the row is
written again. The link of an email withdraws consent.
-/

namespace CryptoLink

open KeyedTables ReadCommitted StatementPrograms System

namespace Marketing

structure ResolveParams where
  email : String
  merchantID : Int
  marketingConsent : Bool
  termsAccepted : Bool
  deriving DecidableEq, Repr

/-- The address as it is stored. -/
def ResolveParams.address (p : ResolveParams) : String := lower (trimSpace p.email)

def newParams (p : ResolveParams) (uuid : String) (now : Int) : InsertContactParams where
  uuid := uuid
  email := p.address
  marketingConsent := p.marketingConsent
  termsAcceptedAt := if p.termsAccepted then some now else none
  sourceMerchantID := p.merchantID
  now := now

def createContact (p : ResolveParams) : MarketingCall Contact := do
  let uuid ← query .random
  let now ← query .timeNow
  let created ← query (.upsertContact (newParams p uuid now))
  wrapping "failed to create/upsert contact" (succeed created)

def acceptedAt (p : ResolveParams) (contact : Contact) (now : Int) : Option Int :=
  if contact.termsAcceptedAt.isNone && p.termsAccepted then some now
  else contact.termsAcceptedAt

/-- Writes back what was read, or more. -/
def upgradeContact (p : ResolveParams) (contact : Contact) : MarketingCall Contact := do
  let newMarketing := contact.marketingConsent || p.marketingConsent
  let now ← query .timeNow
  let updated ← query (.updateContact contact.id newMarketing (acceptedAt p contact now) now)
  wrapping "failed to update contact consent" (succeed updated)
  pure { contact with
    marketingConsent := newMarketing
    termsAcceptedAt := acceptedAt p contact now }

def resolveContact (p : ResolveParams) : MarketingCall Contact :=
  if p.address = "" then .fail (Err.new "email is required")
  else do
    let found ← query (.getContact p.address)
    match found with
    | .ok contact => upgradeContact p contact
    | .error e =>
      if e.is .noRows then createContact p
      else .fail (e.wrap "failed to look up contact")

inductive ContactCall where
  | resolve (p : ResolveParams)
  | unsubscribe (token : String)
  deriving DecidableEq, Repr

/-- Time passes, and the worker issues tokens. -/
inductive ContactMove where
  | pass (elapsed : ℕ)
  | issue (email token : String)

def ContactCall.program : ContactCall → MarketingCall Unit
  | .resolve p => (resolveContact p).bind fun _ => .ret ()
  | .unsubscribe token => (Marketing.unsubscribe token).bind fun _ => .ret ()

def contactCalls : System Stmt Reply Env World Empty Err ContactCall ContactMove where
  engine := engine
  program := ContactCall.program
  move
    | .pass elapsed, w => { w with clock := w.clock + elapsed }
    | .issue email token, w => World.effect (.issueToken email token) {} w

abbrev ContactConfig := Config Stmt Reply Env World Empty Err ContactCall

abbrev ContactThread := Thread Stmt Reply Env World Empty Err ContactCall

abbrev ContactEvent := Event Env ContactMove ContactCall

def consentOf (a : String) (w : World) : Bool :=
  match w.getContact a with
  | some c => c.marketingConsent
  | none => false

def termsOf (a : String) (w : World) : Option Int :=
  (w.getContact a).bind Contact.termsAcceptedAt

theorem getContact_email {a : String} {w : World} {c : Contact} (h : w.getContact a = some c) :
    c.email = a := by
  have hfound := List.find?_some h
  simpa using hfound

/-- An update that keeps addresses acts on the row of an address where it acts at all. -/
theorem find_email_map (g : Contact → Contact) (hemail : ∀ c, (g c).email = c.email) (a : String)
    (rows : List Contact) :
    (rows.map g).find? (fun c => c.email = a) = (rows.find? fun c => c.email = a).map g := by
  induction rows with
  | nil => rfl
  | cons c rows ih =>
    rw [List.map_cons, List.find?_cons, List.find?_cons, hemail c]
    split
    · rfl
    · exact ih

variable {a : String} {env : Env} {w : World}

theorem getContact_updateContact (id : Int) (m : Bool) (t : Option Int) (now : Int) :
    (World.effect (.updateContact id m t now) env w).getContact a =
      (w.getContact a).map fun c => if c.id = id then World.updatedContact m t now c else c := by
  simp only [World.effect, World.getContact, Table.rows_modify]
  apply find_email_map
  intro c
  split <;> rfl

theorem getContact_withdrawConsent (e : String) :
    (World.effect (.withdrawConsent e) env w).getContact a =
      (w.getContact a).map fun c =>
        if lower c.email = lower e then World.withdrawnContact w.clock c else c := by
  simp only [World.effect, World.getContact, Table.rows_updateWhere, decide_eq_true_eq]
  apply find_email_map
  intro c
  split <;> rfl

/-- A contact that is merged is the one of the address, as ids are not shared. -/
theorem getContact_merged {p : InsertContactParams} {c : Contact}
    (hc : w.getContact p.email = some c) :
    World.getContact { w with
        contacts := w.contacts.modify c.id (World.mergedContact p) (World.mergedContact_id p) } a =
      if a = p.email then some (World.mergedContact p c) else w.getContact a := by
  simp only [World.getContact, Table.rows_modify] at hc ⊢
  rw [find_email_map _ (fun x => by split <;> rfl)]
  by_cases ha : a = p.email
  · rw [if_pos ha, ha, hc, Option.map_some, if_pos rfl]
  · rw [if_neg ha]
    cases hrow : w.contacts.rows.find? fun c => c.email = a with
    | none => rfl
    | some x =>
      have hx : x.email = a := by simpa using List.find?_some hrow
      have hce : c.email = p.email := by simpa using List.find?_some hc
      have hne : x.id ≠ c.id := by
        intro hid
        have hsame := Table.eq_of_key_eq (List.mem_of_find?_eq_some hrow)
          (List.mem_of_find?_eq_some hc) hid
        rw [hsame] at hx
        exact ha (hx.symm.trans hce)
      rw [Option.map_some, if_neg hne]

theorem getContact_inserted {p : InsertContactParams} {id : Int}
    (hnone : w.getContact p.email = none) (hid : w.contacts.get id = none) :
    World.getContact { w with contacts := w.contacts.insert (World.newContact id p) } a =
      if a = p.email then some (World.newContact id p) else w.getContact a := by
  have hrows : (w.contacts.insert (World.newContact id p)).rows =
      w.contacts.rows ++ [World.newContact id p] := by
    rw [Table.rows_insert]
    apply if_neg
    intro htaken
    exact Table.get_eq_none_iff.mp hid htaken
  simp only [World.getContact, hrows, List.find?_append] at hnone ⊢
  have hemail : (World.newContact id p).email = p.email := rfl
  by_cases ha : a = p.email
  · rw [if_pos ha, ha, hnone]
    simp [hemail]
  · have hlast : [World.newContact id p].find? (fun c => decide (c.email = a)) = none := by
      simp [hemail, Ne.symm ha]
    rw [if_neg ha, hlast, Option.or_none]

theorem getContact_upsertContact (p : InsertContactParams) :
    (World.effect (.upsertContact p) env w).getContact a =
      if w.contactFits env.id p = true ∧ a = p.email then some (w.upsertedContact env.id p)
      else w.getContact a := by
  simp only [World.effect]
  by_cases hfits : w.contactFits env.id p = true
  · simp only [hfits, if_true, true_and]
    cases hc : w.getContact p.email with
    | some c =>
      rw [World.upsertedContact, hc]
      exact getContact_merged hc
    | none =>
      have hid : w.contacts.get env.id = none := by
        rw [World.contactFits, hc] at hfits
        simp only [Option.isSome_none, Bool.false_or, Bool.and_eq_true,
          Option.isNone_iff_eq_none] at hfits
        exact hfits.2.1
      rw [World.upsertedContact, hc]
      exact getContact_inserted hc hid
  · simp [hfits]

end Marketing

end CryptoLink
