import CryptoLink.Library.KeyedTables

/-!
# Rows that last

A table outlasts another if every row of the other is still there under its key,
related to what it was.
-/

namespace KeyedTables

namespace Table

variable {κ ρ : Type} [DecidableEq κ] {key : ρ → κ} {rel : ρ → ρ → Prop}
  {t t' t'' : Table κ ρ key}

def Outlasts (rel : ρ → ρ → Prop) (t t' : Table κ ρ key) : Prop :=
  ∀ k r, t.get k = some r → ∃ r', t'.get k = some r' ∧ rel r r'

theorem Outlasts.of_eq (hrel : ∀ r, rel r r) (h : t' = t) : t.Outlasts rel t' := by
  subst h
  exact fun _ r hr => ⟨r, hr, hrel r⟩

theorem Outlasts.trans (hrel : ∀ {r r' r''}, rel r r' → rel r' r'' → rel r r'')
    (h : t.Outlasts rel t') (h' : t'.Outlasts rel t'') : t.Outlasts rel t'' := by
  intro k r hr
  obtain ⟨r', hr', hfirst⟩ := h k r hr
  obtain ⟨r'', hr'', hthen⟩ := h' k r' hr'
  exact ⟨r'', hr'', hrel hfirst hthen⟩

end Table

end KeyedTables
