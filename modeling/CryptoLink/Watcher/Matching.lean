import CryptoLink.Library.LeftmostMin
import CryptoLink.Processing.CrossCurrency
import Mathlib.Data.List.Perm.Basic

/-!
# Matching by amount

The invoices open at one address, and which of them takes a transfer.
-/

namespace CryptoLink

/-- `remaining` is nil until a fill of the invoice is confirmed. -/
structure PendingInfo where
  tx : Transaction
  walletID : Option Int
  remaining : Option Int
  deriving DecidableEq, Repr

/-- `computeRemaining`, from the sums read at the top of the cycle. A covered
invoice keeps a remainder of one unit. -/
def computeRemaining (confirmedFillSums : Int → Option Int) (tx : Transaction) : Option Int :=
  match confirmedFillSums tx.id with
  | none => none
  | some confirmed =>
    if confirmed = 0 then none
    else if tx.amount.value - confirmed ≤ 0 then some 1
    else some (tx.amount.value - confirmed)

namespace PendingInfo

def effectiveExpected (p : PendingInfo) : Int :=
  match p.remaining with
  | some r => if 0 < r then r else p.tx.amount.value
  | none => p.tx.amount.value

end PendingInfo

/-- `big.Int.Int64`: the low 64 bits, read as a signed number. -/
def int64 (x : Int) : Int := x.bmod (2 ^ 64)

/-- Basis points off the expected amount. An underpayment is penalized by 50000
of them, and an invoice that expects nothing is passed over. -/
def matchScore (onChainAmount : Int) (p : PendingInfo) : Option Int :=
  let expected := p.effectiveExpected
  if expected ≤ 0 then none
  else
    let diff := onChainAmount - expected
    let score := int64 (|diff| * 10000 / expected)
    some (if diff < 0 then int64 (score + 50000) else score)

def dustThresholdBps : Int := 2000

/-- Less than a fifth of what the invoice expects. -/
def isDust (onChainAmount expected : Int) : Bool :=
  0 < expected && onChainAmount * 10000 < expected * dustThresholdBps

/-- Position, invoice and whether the transfer may be bound to it; an empty
list is out of range. -/
def bestMatchByAmount (pending : List PendingInfo) (onChainAmount : Int) :
    Option (ℕ × PendingInfo × Bool) :=
  let bestIdx := (LeftmostMin.scan (matchScore onChainAmount) pending 0 (0, 2 ^ 62 - 1)).1
  pending[bestIdx]?.map fun best =>
    (bestIdx, best, !isDust onChainAmount best.effectiveExpected)

theorem bestMatchByAmount_eq {pending : List PendingInfo} {amount : Int} {k : ℕ} {v : Int}
    {p : PendingInfo} (hscan :
      LeftmostMin.scan (matchScore amount) pending 0 (0, 2 ^ 62 - 1) = (k, v))
    (hp : pending[k]? = some p) :
    bestMatchByAmount pending amount = some (k, p, !isDust amount p.effectiveExpected) := by
  unfold bestMatchByAmount
  rw [hscan]
  simp only [hp, Option.map_some]

/-- Where the scan stopped, what is there, and whether the transfer suits it. -/
theorem bestMatchByAmount_eq_some {pending : List PendingInfo} {amount : Int} {i : ℕ}
    {info : PendingInfo} {fits : Bool}
    (h : bestMatchByAmount pending amount = some (i, info, fits)) :
    (LeftmostMin.scan (matchScore amount) pending 0 (0, 2 ^ 62 - 1)).1 = i ∧
      pending[i]? = some info ∧ fits = !isDust amount info.effectiveExpected := by
  unfold bestMatchByAmount at h
  obtain ⟨best, hget, he⟩ := Option.map_eq_some_iff.mp h
  obtain ⟨rfl, hbest⟩ := Prod.mk.inj he
  obtain ⟨rfl, rfl⟩ := Prod.mk.inj hbest
  exact ⟨rfl, hget, rfl⟩

/-- The scan never leaves a list that is not empty. -/
theorem bestMatchByAmount_isSome {pending : List PendingInfo} (amount : Int) (hne : pending ≠ []) :
    ∃ i p fits, bestMatchByAmount pending amount = some (i, p, fits) := by
  rcases LeftmostMin.scan_spec (matchScore amount) pending 0 (0, 2 ^ 62 - 1) with
    ⟨hkeep, -⟩ | ⟨k, v, hfound, -, hfirst⟩
  · cases pending with
    | nil => exact absurd rfl hne
    | cons p rest => exact ⟨0, p, _, bestMatchByAmount_eq hkeep rfl⟩
  · obtain ⟨p, hp, -⟩ := hfirst.value
    rw [Nat.zero_add] at hfound
    exact ⟨k, p, _, bestMatchByAmount_eq hfound hp⟩

theorem bestMatchByAmount_mem {pending : List PendingInfo} {amount : Int} {i : ℕ}
    {info : PendingInfo} {fits : Bool}
    (h : bestMatchByAmount pending amount = some (i, info, fits)) : info ∈ pending := by
  obtain ⟨-, hget, -⟩ := bestMatchByAmount_eq_some h
  exact List.mem_of_getElem? hget

theorem not_dust_of_match {pending : List PendingInfo} {amount : Int} {i : ℕ} {info : PendingInfo}
    (h : bestMatchByAmount pending amount = some (i, info, true)) :
    isDust amount info.effectiveExpected = false := by
  obtain ⟨-, -, hfits⟩ := bestMatchByAmount_eq_some h
  simpa using hfits

/-- The invoice with the first best score or, without a score to go by, the
first one. -/
def Chosen (onChainAmount : Int) (pending : List PendingInfo) (p : PendingInfo) : Prop :=
  (∃ k v, v < 2 ^ 62 - 1 ∧ LeftmostMin.IsFirst (matchScore onChainAmount) pending k v ∧
      pending[k]? = some p) ∨
    (∀ q ∈ pending, ∀ v, matchScore onChainAmount q = some v → 2 ^ 62 - 1 ≤ v) ∧
      pending[0]? = some p

theorem chosen_of_bestMatchByAmount {pending : List PendingInfo} {amount : Int} {i : ℕ}
    {info : PendingInfo} {fits : Bool}
    (h : bestMatchByAmount pending amount = some (i, info, fits)) :
    Chosen amount pending info := by
  obtain ⟨rfl, hget, -⟩ := bestMatchByAmount_eq_some h
  rcases LeftmostMin.scan_spec (matchScore amount) pending 0 (0, 2 ^ 62 - 1) with
    ⟨hkeep, hall⟩ | ⟨k, v, hfound, hlt, hfirst⟩
  · rw [hkeep] at hget
    exact .inr ⟨hall, hget⟩
  · rw [hfound, Nat.zero_add] at hget
    exact .inl ⟨k, v, hlt, hfirst, hget⟩

theorem Chosen.bestMatchByAmount {pending : List PendingInfo} {amount : Int} {p : PendingInfo}
    (h : Chosen amount pending p) :
    ∃ i, bestMatchByAmount pending amount =
      some (i, p, !isDust amount p.effectiveExpected) := by
  rcases h with ⟨k, v, hlt, hfirst, hget⟩ | ⟨hall, hget⟩
  · obtain ⟨x, hx, hv⟩ := hfirst.value
    have hbound : v < ((0 : ℕ), (2 ^ 62 - 1 : Int)).2 := hlt
    obtain ⟨k', v', hfound, -, hfirst'⟩ :=
      LeftmostMin.scan_of_lt (List.mem_of_getElem? hx) hv hbound
    obtain rfl := hfirst.unique hfirst'
    exact ⟨k, bestMatchByAmount_eq hfound hget⟩
  · exact ⟨0, bestMatchByAmount_eq (LeftmostMin.scan_of_le hall) hget⟩

/-- The last element takes the place of the removed one. -/
def removePending (s : List PendingInfo) (i : ℕ) : List PendingInfo :=
  match s.getLast? with
  | none => []
  | some last => (s.set i last).dropLast

/-- Whatever the order, only the entry at the position is gone. -/
theorem perm_removePending {s : List PendingInfo} {i : ℕ} {info : PendingInfo}
    (h : s[i]? = some info) : s.Perm (info :: removePending s i) := by
  rcases List.eq_nil_or_concat' s with rfl | ⟨front, last, rfl⟩
  · cases h
  · have hremove : removePending (front ++ [last]) i =
        ((front ++ [last]).set i last).dropLast := by
      simp only [removePending, List.getLast?_append, List.getLast?_singleton, Option.some_or]
    obtain ⟨hi, rfl⟩ := List.getElem?_eq_some_iff.mp h
    rw [hremove]
    by_cases hfront : i < front.length
    · -- the last entry moves to the position of the removed one
      have hset : (front ++ [last]).set i last = front.set i last ++ [last] :=
        List.set_append_left i last hfront
      rw [hset, List.dropLast_concat, List.getElem_append_left hfront]
      calc (front ++ [last]).Perm (last :: front) := List.perm_append_singleton last front
        _ |>.Perm (last :: front[i] :: front.eraseIdx i) :=
            .cons last (List.getElem_cons_eraseIdx_perm hfront).symm
        _ |>.Perm (front[i] :: last :: front.eraseIdx i) := .swap _ _ _
        _ |>.Perm (front[i] :: front.set i last) :=
            .cons _ (List.set_perm_cons_eraseIdx hfront last).symm
    · have hlast : i = front.length := by
        simp only [List.length_append, List.length_singleton] at hi
        omega
      subst hlast
      rw [List.set_append_right _ _ le_rfl, Nat.sub_self]
      simp only [List.set_cons_zero, List.dropLast_concat, List.getElem_concat_length]
      exact List.perm_append_singleton last front

theorem mem_of_removePending {s : List PendingInfo} {i : ℕ} {info : PendingInfo}
    (h : info ∈ removePending s i) : info ∈ s := by
  unfold removePending at h
  cases hlast : s.getLast? with
  | none => simp [hlast] at h
  | some last =>
    rw [hlast] at h
    have hset := List.dropLast_subset _ h
    rcases List.mem_or_eq_of_mem_set hset with hold | rfl
    · exact hold
    · exact List.mem_of_getLast? hlast

end CryptoLink
