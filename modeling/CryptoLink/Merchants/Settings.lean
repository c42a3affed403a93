import CryptoLink.Library.PoolCalls
import CryptoLink.Merchants.Services

/-!
# Changes of a merchant's settings

All settings of a merchant are one document in a column of its row. A request
holds its own copy of the merchant, sets its properties in that copy and writes
the whole document back.
-/

namespace CryptoLink

open KeyedTables ReadCommitted StatementPrograms System

namespace MetaData

theorem find_merge_of_not_mem {m n : MetaData} {k : String} (h : k ∉ n.map Prod.fst) :
    (m.merge n).find k = m.find k := by
  induction n generalizing m with
  | nil => rfl
  | cons p n ih =>
    rw [List.map_cons, List.mem_cons, not_or] at h
    obtain ⟨hne, hrest⟩ := h
    have htail : ((m.set p.1 p.2).merge n).find k = (m.set p.1 p.2).find k := ih hrest
    exact htail.trans (find_set_of_ne hne)

/-- Each property that is set once is found with the value it was set to. -/
theorem find_merge_of_mem {m n : MetaData} {p : String × String} (hn : (n.map Prod.fst).Nodup)
    (h : p ∈ n) : (m.merge n).find p.1 = some p.2 := by
  induction n generalizing m with
  | nil => cases h
  | cons q n ih =>
    obtain ⟨hhead, htail⟩ := List.nodup_cons.mp hn
    rcases List.mem_cons.mp h with rfl | hrest
    · have hlast : ((m.set p.1 p.2).merge n).find p.1 = (m.set p.1 p.2).find p.1 :=
        find_merge_of_not_mem hhead
      exact hlast.trans (find_set m p.1 p.2)
    · exact ih htail hrest

end MetaData

namespace MerchantAPI

/-- A Go map from properties to values: its keys are pairwise different. -/
structure Settings where
  props : MetaData
  nodup : (props.map Prod.fst).Nodup

inductive Change where
  | upsertSettings (settings : Settings)
  | updateSupportedMethods (tickers : List String)

structure SettingsCall where
  merchantID : Int
  change : Change

def Server.apply (s : Server) (mt : Merchant) : Change → TenantCall Unit
  | .upsertSettings settings => upsertSettings mt settings.props
  | .updateSupportedMethods tickers => s.updateSupportedMethods mt tickers.dedup

def Server.changeSettings (s : Server) (c : SettingsCall) : TenantCall Unit := do
  let mt ← getMerchantByID c.merchantID
  s.apply mt c.change

/-- Changes of any merchants' settings side by side. -/
def Server.settingsCalls (s : Server) :
    System Stmt Reply Env World Empty Err SettingsCall Empty where
  engine := engine
  program := s.changeSettings
  move m _ := nomatch m

abbrev SettingsConfig := Config Stmt Reply Env World Empty Err SettingsCall

abbrev SettingsThread := Thread Stmt Reply Env World Empty Err SettingsCall

abbrev SettingsEvent := Event Env Empty SettingsCall

def propertyPaymentMethods : String := "payment.methods"

def Change.properties : Change → List String
  | .upsertSettings settings => settings.props.map Prod.fst
  | .updateSupportedMethods _ => [propertyPaymentMethods]

/-- The properties with the values a call gives them. The tickers of a set are
joined in any order. -/
inductive Change.Sets : Change → MetaData → Prop
  | upsertSettings (settings : Settings) : Sets (.upsertSettings settings) settings.props
  | updateSupportedMethods (tickers keys : List String) (h : keys.Perm tickers.dedup) :
      Sets (.updateSupportedMethods tickers) [(propertyPaymentMethods, String.intercalate "," keys)]

/-- The document has every property of the call with its new value. -/
def Change.Stored (c : Change) (doc : MetaData) : Prop :=
  ∃ props, c.Sets props ∧ ∀ p ∈ props, doc.find p.1 = some p.2

namespace Change

variable {c c' : Change} {props doc : MetaData}

theorem Sets.properties_eq (h : c.Sets props) : props.map Prod.fst = c.properties := by
  cases h with
  | upsertSettings settings => rfl
  | updateSupportedMethods tickers keys h => rfl

theorem Sets.nodup (h : c.Sets props) : (props.map Prod.fst).Nodup := by
  cases h with
  | upsertSettings settings => exact settings.nodup
  | updateSupportedMethods tickers keys h => exact List.nodup_singleton _

theorem Sets.stored_merge (h : c.Sets props) : c.Stored (doc.merge props) :=
  ⟨props, h, fun _ hp => MetaData.find_merge_of_mem h.nodup hp⟩

theorem Sets.find_merge (h : c.Sets props) {p : String} (hp : p ∉ c.properties) :
    (doc.merge props).find p = doc.find p := by
  rw [← h.properties_eq] at hp
  exact MetaData.find_merge_of_not_mem hp

/-- What is stored is not lost to a call that sets other properties. -/
theorem Stored.merge (h : c.Stored doc) (hsets : c'.Sets props)
    (hapart : c.properties.Disjoint c'.properties) : c.Stored (doc.merge props) := by
  obtain ⟨own, hown, hfound⟩ := h
  refine ⟨own, hown, ?_⟩
  intro p hp
  have hmine : p.1 ∈ c.properties := by
    rw [← hown.properties_eq]
    exact List.mem_map_of_mem hp
  rw [hsets.find_merge (hapart hmine)]
  exact hfound p hp

end Change

end MerchantAPI

end CryptoLink
