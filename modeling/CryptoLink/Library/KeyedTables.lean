import Mathlib.Data.List.Nodup
import Mathlib.Data.List.Basic
import Mathlib.Algebra.Ring.Int.Defs

/-!
# Tables with a primary key

A table is a list of rows in insertion order with pairwise different keys.
Updates cannot change a key, inserts of a taken key do nothing, so every table
that can be built satisfies its key constraint.
-/

namespace KeyedTables

structure Table (κ ρ : Type) (key : ρ → κ) where
  rows : List ρ
  nodup : (rows.map key).Nodup

namespace Table

variable {κ ρ : Type} {key : ρ → κ}

def empty : Table κ ρ key := ⟨[], List.nodup_nil⟩

/-- An update of every row that `p` selects. -/
def updateWhere (t : Table κ ρ key) (p : ρ → Bool) (f : ρ → ρ) (hf : ∀ r, key (f r) = key r) :
    Table κ ρ key where
  rows := t.rows.map fun r => if p r then f r else r
  nodup := by
    have hkeys : (t.rows.map fun r => if p r then f r else r).map key = t.rows.map key := by
      rw [List.map_map]
      refine List.map_congr_left fun r _ => ?_
      by_cases h : p r = true
      · simp [h, hf]
      · simp [h]
    rw [hkeys]
    exact t.nodup

@[simp] theorem rows_updateWhere (t : Table κ ρ key) (p : ρ → Bool) (f : ρ → ρ) (hf) :
    (t.updateWhere p f hf).rows = t.rows.map fun r => if p r then f r else r := rfl

def deleteWhere (t : Table κ ρ key) (p : ρ → Bool) : Table κ ρ key where
  rows := t.rows.filter fun r => !p r
  nodup := t.nodup.sublist (List.filter_sublist.map key)

@[simp] theorem rows_deleteWhere (t : Table κ ρ key) (p : ρ → Bool) :
    (t.deleteWhere p).rows = t.rows.filter fun r => !p r := rfl

theorem eq_of_key_eq {t : Table κ ρ key} {r x : ρ} (hr : r ∈ t.rows) (hx : x ∈ t.rows)
    (h : key r = key x) : r = x :=
  List.inj_on_of_nodup_map t.nodup hr hx h

theorem ext_rows {t t' : Table κ ρ key} (h : t.rows = t'.rows) : t = t' := by
  obtain ⟨rows, hrows⟩ := t
  obtain ⟨rows', hrows'⟩ := t'
  cases h
  rfl

theorem deleteWhere_eq_self_iff {t : Table κ ρ key} {p : ρ → Bool} :
    t.deleteWhere p = t ↔ ∀ r ∈ t.rows, p r = false := by
  constructor
  · intro h r hr
    have hrows : (t.deleteWhere p).rows = t.rows := congrArg rows h
    rw [rows_deleteWhere, List.filter_eq_self] at hrows
    simpa using hrows r hr
  · intro h
    apply ext_rows
    rw [rows_deleteWhere, List.filter_eq_self]
    intro r hr
    rw [h r hr]
    rfl

/-- An update that writes something else wherever it writes. -/
theorem updateWhere_eq_self_iff {t : Table κ ρ key} {p : ρ → Bool} {f : ρ → ρ}
    {hf : ∀ r, key (f r) = key r} (hne : ∀ r, p r = true → f r ≠ r) :
    t.updateWhere p f hf = t ↔ ∀ r ∈ t.rows, p r = false := by
  constructor
  · intro h r hr
    have hrows : (t.updateWhere p f hf).rows = t.rows := congrArg rows h
    have hsame : (t.rows.map fun r => if p r then f r else r) = t.rows.map id := by
      rw [List.map_id]
      exact hrows
    have hr' := List.map_inj_left.mp hsame r hr
    cases hp : p r with
    | false => rfl
    | true =>
      rw [hp, if_pos rfl] at hr'
      exact absurd hr' (hne r hp)
  · intro h
    apply ext_rows
    rw [rows_updateWhere]
    have hsame : (t.rows.map fun r => if p r then f r else r) = t.rows.map id := by
      apply List.map_congr_left
      intro r hr
      rw [h r hr]
      rfl
    rw [hsame, List.map_id]

/-- An update that neither selects nor yields a row of `q` leaves them alone. -/
theorem filter_updateWhere (t : Table κ ρ key) {p q : ρ → Bool} {f : ρ → ρ}
    (hf : ∀ r, key (f r) = key r)
    (h : ∀ r ∈ t.rows, p r = true → q r = false ∧ q (f r) = false) :
    (t.updateWhere p f hf).rows.filter q = t.rows.filter q := by
  rw [rows_updateWhere]
  generalize t.rows = rows at h
  induction rows with
  | nil => rfl
  | cons r rest ih =>
    have hrest := ih fun x hx => h x (List.mem_cons_of_mem r hx)
    rw [List.map_cons]
    by_cases hp : p r = true
    · obtain ⟨hq, hqf⟩ := h r List.mem_cons_self hp
      simp only [hp, if_true, List.filter_cons, hq, hqf]
      exact hrest
    · simp only [hp, List.filter_cons]
      rw [← hrest]
      rfl

theorem filter_deleteWhere (t : Table κ ρ key) {p q : ρ → Bool}
    (h : ∀ r ∈ t.rows, p r = true → q r = false) :
    (t.deleteWhere p).rows.filter q = t.rows.filter q := by
  rw [rows_deleteWhere, List.filter_filter]
  refine List.filter_congr fun r hr => ?_
  by_cases hp : p r = true
  · simp [hp, h r hr hp]
  · simp [hp]

variable [DecidableEq κ]

def get (t : Table κ ρ key) (k : κ) : Option ρ :=
  t.rows.find? fun r => decide (key r = k)

def modify (t : Table κ ρ key) (k : κ) (f : ρ → ρ) (hf : ∀ r, key (f r) = key r) :
    Table κ ρ key where
  rows := t.rows.map fun r => if key r = k then f r else r
  nodup := by
    have hkeys : (t.rows.map fun r => if key r = k then f r else r).map key = t.rows.map key := by
      rw [List.map_map]
      refine List.map_congr_left fun r _ => ?_
      by_cases h : key r = k <;> simp [h, hf]
    rw [hkeys]
    exact t.nodup

def insert (t : Table κ ρ key) (r : ρ) : Table κ ρ key :=
  if h : key r ∈ t.rows.map key then t
  else ⟨t.rows ++ [r], by
    rw [List.map_append]
    exact List.nodup_append.mpr ⟨t.nodup, by simp, by
      rintro a ha b hb rfl
      simp only [List.map_cons, List.map_nil, List.mem_singleton] at hb
      exact h (hb ▸ ha)⟩⟩

theorem get_eq_some {t : Table κ ρ key} {k : κ} {r : ρ} (h : t.get k = some r) :
    r ∈ t.rows ∧ key r = k :=
  ⟨List.mem_of_find?_eq_some h, by simpa using List.find?_some h⟩

theorem get_of_mem {t : Table κ ρ key} {r : ρ} (h : r ∈ t.rows) : t.get (key r) = some r := by
  obtain ⟨rows, nodup⟩ := t
  simp only [get]
  induction rows with
  | nil => cases h
  | cons a rows ih =>
    simp only [List.map_cons, List.nodup_cons] at nodup
    rcases List.mem_cons.mp h with rfl | hmem
    · simp
    · have hne : key a ≠ key r := fun he => nodup.1 (he ▸ List.mem_map_of_mem hmem)
      simp only [List.find?_cons, hne, decide_false]
      exact ih nodup.2 hmem

omit [DecidableEq κ] in
/-- Rows with different keys: one at most, if they all have the same. -/
theorem length_le_one_iff {rows : List ρ} (hkeys : (rows.map key).Nodup) :
    rows.length ≤ 1 ↔ ∀ r ∈ rows, ∀ x ∈ rows, key r = key x := by
  constructor
  · intro hone r hr x hx
    match rows, hone with
    | [], _ => cases hr
    | [y], _ => rw [List.mem_singleton.mp hr, List.mem_singleton.mp hx]
  · intro hall
    match rows, hkeys with
    | [], _ => exact Nat.zero_le 1
    | [y], _ => exact Nat.le_refl 1
    | y :: z :: rest, hkeys =>
      have hz : z ∈ y :: z :: rest := List.mem_cons_of_mem _ List.mem_cons_self
      have hdistinct : key y ∉ (z :: rest).map key := (List.nodup_cons.mp hkeys).1
      rw [hall y List.mem_cons_self z hz] at hdistinct
      exact absurd List.mem_cons_self hdistinct

theorem get_eq_none_iff {t : Table κ ρ key} {k : κ} :
    t.get k = none ↔ k ∉ t.rows.map key := by
  simp only [get, List.find?_eq_none, decide_eq_true_eq, List.mem_map, not_exists, not_and]

@[simp] theorem rows_modify (t : Table κ ρ key) (k : κ) (f : ρ → ρ) (hf) :
    (t.modify k f hf).rows = t.rows.map fun r => if key r = k then f r else r := rfl

theorem get_modify (t : Table κ ρ key) (k k' : κ) (f : ρ → ρ) (hf : ∀ r, key (f r) = key r) :
    (t.modify k f hf).get k' = (t.get k').map fun r => if k' = k then f r else r := by
  obtain ⟨rows, nodup⟩ := t
  simp only [get, rows_modify]
  induction rows with
  | nil => rfl
  | cons a rows ih =>
    have hkey : key (if key a = k then f a else a) = key a := by
      by_cases h : key a = k <;> simp [h, hf]
    simp only [List.map_cons, List.find?_cons, hkey]
    by_cases hk : key a = k'
    · simp [hk]
    · simp only [hk, decide_false]
      exact ih (List.Nodup.of_cons (by simpa using nodup))

@[simp] theorem get_modify_self (t : Table κ ρ key) (k : κ) (f : ρ → ρ) (hf) :
    (t.modify k f hf).get k = (t.get k).map f := by
  simp [get_modify]

theorem get_modify_of_ne (t : Table κ ρ key) {k k' : κ} (f : ρ → ρ) (hf) (h : k' ≠ k) :
    (t.modify k f hf).get k' = t.get k' := by
  simp [get_modify, h]

theorem get_updateWhere (t : Table κ ρ key) (p : ρ → Bool) (f : ρ → ρ)
    (hf : ∀ r, key (f r) = key r) (k : κ) :
    (t.updateWhere p f hf).get k = (t.get k).map fun r => if p r then f r else r := by
  obtain ⟨rows, nodup⟩ := t
  simp only [get, rows_updateWhere]
  induction rows with
  | nil => rfl
  | cons a rows ih =>
    have hkey : key (if p a then f a else a) = key a := by
      by_cases h : p a = true
      · simp [h, hf]
      · simp [h]
    simp only [List.map_cons, List.find?_cons, hkey]
    by_cases hk : key a = k
    · simp [hk]
    · simp only [hk, decide_false]
      exact ih (List.Nodup.of_cons (by simpa using nodup))

theorem rows_insert (t : Table κ ρ key) (r : ρ) :
    (t.insert r).rows = if key r ∈ t.rows.map key then t.rows else t.rows ++ [r] := by
  by_cases h : key r ∈ t.rows.map key <;> simp [insert, h]

/-- An insert adds its row to a selection that wants it, and to no other. -/
theorem filter_insert (t : Table κ ρ key) {r : ρ} {q : ρ → Bool} (h : q r = false) :
    (t.insert r).rows.filter q = t.rows.filter q := by
  rw [rows_insert]
  split
  · rfl
  · rw [List.filter_append]
    simp [h]

theorem mem_insert {t : Table κ ρ key} {r x : ρ} (h : x ∈ (t.insert r).rows) :
    x ∈ t.rows ∨ x = r := by
  rw [rows_insert] at h
  split at h
  · exact .inl h
  · rcases List.mem_append.mp h with hold | hnew
    · exact .inl hold
    · exact .inr (List.mem_singleton.mp hnew)

theorem mem_insert_of_mem {t : Table κ ρ key} {r x : ρ} (h : x ∈ t.rows) :
    x ∈ (t.insert r).rows := by
  rw [rows_insert]
  split
  · exact h
  · exact List.mem_append_left _ h

theorem get_insert_of_ne (t : Table κ ρ key) {r : ρ} {k : κ} (h : k ≠ key r) :
    (t.insert r).get k = t.get k := by
  have hne : ¬ key r = k := fun he => h he.symm
  by_cases hmem : key r ∈ t.rows.map key
  · simp only [get, rows_insert, hmem, if_true]
  · simp [get, rows_insert, hmem, List.find?_append, hne]

theorem get_insert_self (t : Table κ ρ key) {r : ρ} (h : t.get (key r) = none) :
    (t.insert r).get (key r) = some r := by
  have hmem := get_eq_none_iff.mp h
  have hnone : t.rows.find? (fun x => decide (key x = key r)) = none := h
  simp [get, rows_insert, hmem, List.find?_append, hnone]

theorem insert_of_taken (t : Table κ ρ key) {r x : ρ} (h : t.get (key r) = some x) :
    t.insert r = t := by
  have hmem : key r ∈ t.rows.map key := by
    by_contra hn
    rw [get_eq_none_iff.mpr hn] at h
    cases h
  simp [insert, hmem]

theorem modify_of_missing (t : Table κ ρ key) {k : κ} (f : ρ → ρ) (hf) (h : t.get k = none) :
    (t.modify k f hf).rows = t.rows := by
  have hmissing := get_eq_none_iff.mp h
  rw [rows_modify]
  apply (List.map_congr_left _).trans (List.map_id t.rows)
  intro r hr
  rw [if_neg]
  · rfl
  · rintro rfl
    exact hmissing (List.mem_map_of_mem hr)

/-- A sum over the table moves by what the one row moves. -/
theorem sum_modify (t : Table κ ρ key) {k : κ} {r : ρ} (f : ρ → ρ) (hf) (g : ρ → Int)
    (h : t.get k = some r) :
    ((t.modify k f hf).rows.map g).sum = (t.rows.map g).sum + (g (f r) - g r) := by
  obtain ⟨rows, nodup⟩ := t
  simp only [get] at h
  simp only [rows_modify, List.map_map]
  induction rows with
  | nil => cases h
  | cons a rows ih =>
    simp only [List.map_cons, List.nodup_cons] at nodup
    simp only [List.map_cons, List.sum_cons, Function.comp_apply]
    by_cases ha : key a = k
    · simp only [List.find?_cons, ha, decide_true, Option.some.injEq] at h
      subst h
      have hrest : (rows.map (g ∘ fun r => if key r = k then f r else r)).sum =
        (rows.map g).sum := by
        congr 1
        apply List.map_congr_left
        intro x hx
        have hne : key x ≠ k := by
          intro hxk
          exact nodup.1 (ha.trans hxk.symm ▸ List.mem_map_of_mem hx)
        rw [Function.comp_apply, if_neg hne]
      rw [if_pos ha, hrest]
      omega
    · simp only [List.find?_cons, ha, decide_false] at h
      rw [if_neg ha, ih nodup.2 h]
      omega

/-- Or by the row that is new. -/
theorem sum_insert (t : Table κ ρ key) {r : ρ} (g : ρ → Int) (h : t.get (key r) = none) :
    ((t.insert r).rows.map g).sum = (t.rows.map g).sum + g r := by
  rw [rows_insert, if_neg (get_eq_none_iff.mp h), List.map_append, List.sum_append]
  simp

end Table

end KeyedTables
