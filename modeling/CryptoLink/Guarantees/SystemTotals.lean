import CryptoLink.Library.Landings
import CryptoLink.Calls
import CryptoLink.Processing.Topup
import CryptoLink.Repository.Frames

/-!
# System balances are totals

The merge of the two lists goes through exactly if every balance of a merchant
has one of a wallet to be subtracted from, in the same currency on the same
network, and then it gives the difference of the two sums. A wallet's balance
comes with a confirmation into that wallet. One without a wallet credits the
merchant alone, and from then on no system balance can be computed at all.
-/

namespace CryptoLink

open KeyedTables ReadCommitted StatementPrograms System

/-- A fold that may fail: either every step keeps `I`, or one of them meets what
makes it fail. -/
theorem foldlM_cases {α β ε : Type} {f : β → α → Except ε β} {I : List α → β → Prop}
    {Fails : List α → α → Prop}
    (hstep : ∀ done b a, I done b → (∃ b', f b a = .ok b' ∧ I (done ++ [a]) b') ∨
      ((∃ e, f b a = .error e) ∧ Fails done a))
    (rest done : List α) (b : β) (h : I done b) :
    (∃ b', rest.foldlM f b = .ok b' ∧ I (done ++ rest) b') ∨
      ((∃ e, rest.foldlM f b = .error e) ∧
        ∃ before a after, done ++ rest = before ++ a :: after ∧ Fails before a) := by
  induction rest generalizing done b with
  | nil =>
    left
    rw [List.append_nil]
    exact ⟨b, rfl, h⟩
  | cons a rest ih =>
    rw [List.foldlM_cons]
    rcases hstep done b a h with ⟨b', hb', hI⟩ | ⟨⟨e, he⟩, hfails⟩
    · rw [hb']
      have hlater := ih (done ++ [a]) b' hI
      rw [List.append_assoc] at hlater
      exact hlater
    · right
      rw [he]
      exact ⟨⟨e, rfl⟩, done, a, rest, rfl, hfails⟩

/-- The currency of a balance and the network it is held on. -/
def BalanceKey.place (k : BalanceKey) : String × String × String :=
  (k.currency, k.network, k.networkID)

def Balance.place (b : Balance) : String × String × String := b.id.place

/-- The sum of the balances that `p` selects. -/
def totalAmount (p : Balance → Prop) [DecidablePred p] (l : List Balance) : Int :=
  ((l.filter fun b => p b).map fun b => b.amount.value).sum

section

variable {p q : Balance → Prop} [DecidablePred p] [DecidablePred q] {l : List Balance}

theorem totalAmount_append_single (b : Balance) :
    totalAmount p (l ++ [b]) = totalAmount p l + if p b then b.amount.value else 0 := by
  rw [totalAmount, totalAmount, List.filter_append, List.map_append, List.sum_append]
  by_cases hb : p b
  · simp [hb]
  · simp [hb]

theorem totalAmount_eq_zero (h : ∀ b ∈ l, ¬ p b) : totalAmount p l = 0 := by
  have hnone : (l.filter fun b => decide (p b)) = [] := by
    rw [List.filter_eq_nil_iff]
    intro b hb
    simpa using h b hb
  rw [totalAmount, hnone]
  rfl

theorem totalAmount_congr (h : ∀ b ∈ l, p b ↔ q b) : totalAmount p l = totalAmount q l := by
  rw [totalAmount, totalAmount, List.filter_congr]
  intro b hb
  simp [h b hb]

end

/-- Every currency and network of either list has one system balance: what the
wallets hold less what the merchants are owed. -/
def SystemBalancesTotal (merchants wallets : List Balance) : Prop :=
  ∃ bs, composeSystemBalances merchants wallets = .ok bs ∧ ∀ b ∈ merchants ++ wallets,
    (bs.filter fun c => c.place = b.place).map (fun c => c.amount.value) =
      [totalAmount (fun x => x.place = b.place) wallets -
        totalAmount (fun x => x.place = b.place) merchants]

theorem keyFunc_of_place {a b : Balance} (h : a.place = b.place) : keyFunc a = keyFunc b := by
  obtain ⟨hcurrency, hnetwork, hnetworkID⟩ : a.id.currency = b.id.currency ∧
      a.id.network = b.id.network ∧ a.id.networkID = b.id.networkID := by
    simpa [Balance.place, BalanceKey.place] using h
  rw [keyFunc, keyFunc, hcurrency, hnetwork, hnetworkID]

/-- A key stands for one place, and its amounts can be added. -/
structure Balance.Matches (a b : Balance) : Prop where
  place : a.place = b.place
  amounts : a.amount.compatibleTo b.amount = true

def Covered (merchants wallets : List Balance) : Prop :=
  ∀ m ∈ merchants, ∃ w ∈ wallets, keyFunc w = keyFunc m

/-- What the map holds after these wallets and merchants. -/
structure Summed (wallets merchants : List Balance) (m : BalancesMap) : Prop where
  found : ∀ w ∈ wallets, ∃ b ∈ m.rows, keyFunc b = keyFunc w
  made : ∀ b ∈ m.rows, ∃ w ∈ wallets, w.place = b.place
  covered : Covered merchants wallets
  fits : ∀ b ∈ m.rows, ∀ x ∈ merchants ++ wallets, keyFunc x = keyFunc b →
    b.amount.ticker = x.amount.ticker ∧ b.amount.decimals = x.amount.decimals
  value : ∀ b ∈ m.rows, b.amount.value =
    totalAmount (fun x => keyFunc x = keyFunc b) wallets -
      totalAmount (fun x => keyFunc x = keyFunc b) merchants

namespace Summed

variable {wallets merchants : List Balance} {m : BalancesMap}

theorem empty : Summed [] [] Table.empty where
  found := by
    intro w hw
    cases hw
  made := by
    intro b hb
    cases hb
  covered := by
    intro x hx
    cases hx
  fits := by
    intro b hb
    cases hb
  value := by
    intro b hb
    cases hb

theorem get_eq_none_iff {w : Balance} :
    m.get (keyFunc w) = none ↔ ∀ b ∈ m.rows, keyFunc b ≠ keyFunc w := by
  rw [Table.get_eq_none_iff, List.mem_map]
  simp

/-- A wallet of a new key opens a system balance. -/
theorem insert (h : Summed wallets [] m) {w : Balance} (hnone : m.get (keyFunc w) = none) :
    Summed (wallets ++ [w]) [] (m.insert {
      id := ⟨.system, 0, w.id.network, w.id.networkID, w.id.currency⟩
      currencyType := w.currencyType
      amount := w.amount }) := by
  let new : Balance := ⟨⟨.system, 0, w.id.network, w.id.networkID, w.id.currency⟩,
    w.currencyType, w.amount⟩
  have hplace : new.place = w.place := rfl
  have hkey : keyFunc new = keyFunc w := rfl
  have hfree : ∀ b ∈ m.rows, keyFunc b ≠ keyFunc w := get_eq_none_iff.mp hnone
  have hnew : ∀ x ∈ wallets, keyFunc x ≠ keyFunc w := by
    intro x hx heq
    obtain ⟨b, hb, hbx⟩ := h.found x hx
    exact hfree b hb (hbx.trans heq)
  have hrows : (m.insert new).rows = m.rows ++ [new] := by
    rw [Table.rows_insert, if_neg]
    intro hmem
    obtain ⟨b, hb, hbkey⟩ := List.mem_map.mp hmem
    exact hfree b hb (hbkey.trans hkey)
  have hmem : ∀ b, b ∈ (m.insert new).rows ↔ b ∈ m.rows ∨ b = new := by
    intro b
    rw [hrows, List.mem_append, List.mem_singleton]
  constructor
  · intro x hx
    rcases List.mem_append.mp hx with hold | hlast
    · obtain ⟨b, hb, hbx⟩ := h.found x hold
      exact ⟨b, (hmem b).mpr (.inl hb), hbx⟩
    · obtain rfl := List.mem_singleton.mp hlast
      exact ⟨new, (hmem new).mpr (.inr rfl), hkey⟩
  · intro b hb
    rcases (hmem b).mp hb with hold | rfl
    · obtain ⟨x, hx, hxb⟩ := h.made b hold
      exact ⟨x, List.mem_append_left _ hx, hxb⟩
    · exact ⟨w, List.mem_append_right _ (List.mem_singleton_self w), rfl⟩
  · intro x hx
    cases hx
  · intro b hb x hx heq
    rw [List.nil_append] at hx
    rcases (hmem b).mp hb with hold | rfl
    · rcases List.mem_append.mp hx with hearlier | hlast
      · exact h.fits b hold x hearlier heq
      · obtain rfl := List.mem_singleton.mp hlast
        exact absurd heq.symm (hfree b hold)
    · rcases List.mem_append.mp hx with hearlier | hlast
      · exact absurd (heq.trans hkey) (hnew x hearlier)
      · obtain rfl := List.mem_singleton.mp hlast
        exact ⟨rfl, rfl⟩
  · intro b hb
    rw [totalAmount_append_single]
    rcases (hmem b).mp hb with hold | rfl
    · have hother : ¬ keyFunc w = keyFunc b := fun heq => hfree b hold heq.symm
      rw [if_neg hother, h.value b hold]
      omega
    · rw [if_pos hkey.symm, totalAmount_eq_zero fun x hx heq => hnew x hx (heq.trans hkey)]
      have hnothing : totalAmount (fun x => keyFunc x = keyFunc new) [] = 0 := rfl
      rw [hnothing]
      show w.amount.value = _
      omega

/-- Another balance of a key that is there. -/
theorem setAmount {wallets' merchants' : List Balance} {x b : Balance} {total : Money} {d : Int}
    (h : Summed wallets merchants m) (hb : b ∈ m.rows) (hkey : keyFunc b = keyFunc x)
    (hfits : b.amount.ticker = x.amount.ticker ∧ b.amount.decimals = x.amount.decimals)
    (htotal : total = { b.amount with value := b.amount.value + d })
    (hwallets : ∀ y, y ∈ wallets → y ∈ wallets')
    (hwallet : ∀ y ∈ wallets', y ∈ wallets ∨ y = x)
    (hmerchant : ∀ y ∈ merchants', y ∈ merchants ∨ y = x)
    (hsums : ∀ k, totalAmount (fun y => keyFunc y = k) wallets' -
        totalAmount (fun y => keyFunc y = k) merchants' =
      totalAmount (fun y => keyFunc y = k) wallets -
        totalAmount (fun y => keyFunc y = k) merchants + if keyFunc x = k then d else 0) :
    Summed wallets' merchants' (m.setAmount (keyFunc x) total) := by
  have hrow : ∀ c ∈ (m.setAmount (keyFunc x) total).rows, ∃ a ∈ m.rows, a.id = c.id ∧
      a.amount.ticker = c.amount.ticker ∧ a.amount.decimals = c.amount.decimals ∧
      c.amount.value = a.amount.value + (if keyFunc x = keyFunc a then d else 0) ∧
      (keyFunc a = keyFunc x → a = b) := by
    intro c hc
    obtain ⟨a, ha, rfl⟩ := List.mem_map.mp hc
    have hsame : keyFunc a = keyFunc x → a = b :=
      fun heq => Table.eq_of_key_eq ha hb (heq.trans hkey.symm)
    refine ⟨a, ha, ?_⟩
    by_cases heq : keyFunc a = keyFunc x
    · obtain rfl := hsame heq
      rw [if_pos heq, if_pos heq.symm, htotal]
      exact ⟨rfl, rfl, rfl, rfl, hsame⟩
    · rw [if_neg heq, if_neg fun hx => heq hx.symm]
      exact ⟨rfl, rfl, rfl, (Int.add_zero _).symm, hsame⟩
  have hkeys : ∀ a ∈ m.rows, ∃ c ∈ (m.setAmount (keyFunc x) total).rows,
      keyFunc c = keyFunc a := by
    intro a ha
    refine ⟨_, List.mem_map_of_mem ha, ?_⟩
    split
    · rfl
    · rfl
  have hid : ∀ {a c : Balance}, a.id = c.id → keyFunc a = keyFunc c := by
    intro a c hac
    rw [keyFunc, keyFunc, hac]
  constructor
  · intro w hw
    rcases hwallet w hw with hold | rfl
    · obtain ⟨a, ha, haw⟩ := h.found w hold
      obtain ⟨c, hc, hca⟩ := hkeys a ha
      exact ⟨c, hc, hca.trans haw⟩
    · obtain ⟨c, hc, hca⟩ := hkeys b hb
      exact ⟨c, hc, hca.trans hkey⟩
  · intro c hc
    obtain ⟨a, ha, hac, -⟩ := hrow c hc
    obtain ⟨w, hw, hwa⟩ := h.made a ha
    refine ⟨w, hwallets w hw, hwa.trans ?_⟩
    rw [Balance.place, hac]
    rfl
  · intro y hy
    rcases hmerchant y hy with hold | rfl
    · obtain ⟨w, hw, hwy⟩ := h.covered y hold
      exact ⟨w, hwallets w hw, hwy⟩
    · obtain ⟨w, hw, hwb⟩ := h.made b hb
      exact ⟨w, hwallets w hw, (keyFunc_of_place hwb).trans hkey⟩
  · intro c hc y hy heq
    obtain ⟨a, ha, hac, hticker, hdecimals, -, hsame⟩ := hrow c hc
    have hya : keyFunc y = keyFunc a := heq.trans (hid hac).symm
    have hjoined : y ∈ merchants ++ wallets ∨ y = x := by
      rcases List.mem_append.mp hy with hm | hw
      · rcases hmerchant y hm with hold | hx
        · exact .inl (List.mem_append_left _ hold)
        · exact .inr hx
      · rcases hwallet y hw with hold | hx
        · exact .inl (List.mem_append_right _ hold)
        · exact .inr hx
    rw [← hticker, ← hdecimals]
    rcases hjoined with hold | rfl
    · exact h.fits a ha y hold hya
    · obtain rfl := hsame hya.symm
      exact hfits
  · intro c hc
    obtain ⟨a, ha, hac, -, -, hvalue, -⟩ := hrow c hc
    rw [hvalue, h.value a ha, ← hid hac, hsums (keyFunc a)]

/-- A wallet of a key that is there, or of a new one. -/
theorem addWallet (h : Summed wallets [] m) (w : Balance) :
    (∃ m', m.addWallet w = .ok m' ∧ Summed (wallets ++ [w]) [] m') ∨
      ((∃ e, m.addWallet w = .error e) ∧
        ∃ x ∈ wallets, keyFunc x = keyFunc w ∧ x.amount.compatibleTo w.amount = false) := by
  rw [BalancesMap.addWallet]
  cases hget : m.get (keyFunc w) with
  | none =>
    left
    exact ⟨_, rfl, h.insert hget⟩
  | some b =>
    obtain ⟨hb, hkey⟩ := Table.get_eq_some hget
    by_cases hfits : b.amount.compatibleTo w.amount = true
    · left
      simp only [Money.add, if_pos hfits, wrapErr_ok]
      refine ⟨_, rfl, ?_⟩
      apply h.setAmount hb hkey (Money.compatibleTo_iff.mp hfits) rfl
      · intro y hy
        exact List.mem_append_left _ hy
      · intro y hy
        rw [List.mem_append, List.mem_singleton] at hy
        exact hy
      · intro y hy
        cases hy
      · intro k
        rw [totalAmount_append_single]
        split
        · omega
        · omega
    · right
      simp only [Money.add, hfits]
      refine ⟨⟨_, rfl⟩, ?_⟩
      obtain ⟨x, hx, hxb⟩ := h.made b hb
      have hxkey : keyFunc x = keyFunc b := keyFunc_of_place hxb
      refine ⟨x, hx, hxkey.trans hkey, ?_⟩
      have hbx := h.fits b hb x (List.mem_append_right _ hx) hxkey
      rw [← Bool.not_eq_true, Money.compatibleTo_iff, ← hbx.1, ← hbx.2, ← Money.compatibleTo_iff]
      exact hfits

/-- A merchant needs a wallet of its key. -/
theorem subtractMerchant (h : Summed wallets merchants m) (x : Balance) :
    (∃ m', m.subtractMerchant x = .ok m' ∧ Summed wallets (merchants ++ [x]) m') ∨
      ((∃ e, m.subtractMerchant x = .error e) ∧
        ((∀ w ∈ wallets, keyFunc w ≠ keyFunc x) ∨
          ∃ w ∈ wallets, keyFunc w = keyFunc x ∧ w.amount.compatibleTo x.amount = false)) := by
  rw [BalancesMap.subtractMerchant]
  cases hget : m.get (keyFunc x) with
  | none =>
    right
    refine ⟨⟨_, rfl⟩, .inl ?_⟩
    intro w hw heq
    obtain ⟨b, hb, hbw⟩ := h.found w hw
    exact get_eq_none_iff.mp hget b hb (hbw.trans heq)
  | some b =>
    obtain ⟨hb, hkey⟩ := Table.get_eq_some hget
    by_cases hfits : b.amount.compatibleTo x.amount = true
    · left
      simp only [Money.subNegative, if_pos hfits, wrapErr_ok]
      refine ⟨_, rfl, ?_⟩
      apply h.setAmount hb hkey (Money.compatibleTo_iff.mp hfits) (d := -x.amount.value)
      · rw [Int.sub_eq_add_neg]
      · intro y hy
        exact hy
      · intro y hy
        exact .inl hy
      · intro y hy
        rw [List.mem_append, List.mem_singleton] at hy
        exact hy
      · intro k
        rw [totalAmount_append_single]
        split
        · omega
        · omega
    · right
      simp only [Money.subNegative, hfits]
      refine ⟨⟨_, rfl⟩, .inr ?_⟩
      obtain ⟨w, hw, hwb⟩ := h.made b hb
      have hwkey : keyFunc w = keyFunc b := keyFunc_of_place hwb
      refine ⟨w, hw, hwkey.trans hkey, ?_⟩
      have hbw := h.fits b hb w (List.mem_append_right _ hw) hwkey
      rw [← Bool.not_eq_true, Money.compatibleTo_iff, ← hbw.1, ← hbw.2, ← Money.compatibleTo_iff]
      exact hfits

/-- Under every key there is one entry, and everything fits it. -/
theorem entry (h : Summed wallets merchants m) {x : Balance} (hx : x ∈ merchants ++ wallets) :
    ∃ b ∈ m.rows, keyFunc b = keyFunc x ∧ b.amount.compatibleTo x.amount = true := by
  obtain ⟨b, hb, hkey⟩ : ∃ b ∈ m.rows, keyFunc b = keyFunc x := by
    rcases List.mem_append.mp hx with hm | hw
    · obtain ⟨w, hw, hwx⟩ := h.covered x hm
      obtain ⟨b, hb, hbw⟩ := h.found w hw
      exact ⟨b, hb, hbw.trans hwx⟩
    · exact h.found x hw
  exact ⟨b, hb, hkey, Money.compatibleTo_iff.mpr (h.fits b hb x hx hkey.symm)⟩

end Summed

theorem compatibleTo_of_left {a b c : Money} (hb : a.compatibleTo b = true)
    (hc : a.compatibleTo c = true) : b.compatibleTo c = true := by
  rw [Money.compatibleTo_iff] at hb hc ⊢
  exact ⟨hb.1.symm.trans hc.1, hb.2.symm.trans hc.2⟩

/-- The merge fails on a merchant without a wallet or on amounts that cannot be
added, and on nothing else. -/
theorem composeSystemBalances_cases (merchants wallets : List Balance) :
    (∃ bs m, composeSystemBalances merchants wallets = .ok bs ∧ Summed wallets merchants m ∧
      bs.Perm m.rows) ∨
    ((∃ e, composeSystemBalances merchants wallets = .error e) ∧
      ¬ (Covered merchants wallets ∧ ∀ a ∈ merchants ++ wallets, ∀ b ∈ merchants ++ wallets,
        keyFunc a = keyFunc b → a.amount.compatibleTo b.amount = true)) := by
  have hadd := foldlM_cases (f := BalancesMap.addWallet) (I := fun ws m => Summed ws [] m)
    (fun _ m w h => h.addWallet w) wallets [] Table.empty Summed.empty
  rw [List.nil_append] at hadd
  rcases hadd with ⟨added, hadded, hsummed⟩ |
    ⟨⟨e, he⟩, before, w, after, hlist, x, hx, hkey, hapart⟩
  · have hsub := foldlM_cases (f := BalancesMap.subtractMerchant)
      (I := fun ms m => Summed wallets ms m) (fun _ m x h => h.subtractMerchant x) merchants []
      added hsummed
    rw [List.nil_append] at hsub
    rcases hsub with ⟨m, hm, hall⟩ | ⟨⟨e, he⟩, before, x, after, hlist, hfails⟩
    · left
      refine ⟨m.rows.insertionSort fun a b => keyFunc a ≤ keyFunc b, m, ?_, hall,
        List.perm_insertionSort _ _⟩
      simp only [composeSystemBalances, hadded, hm, bind, Except.bind]
    · right
      refine ⟨⟨e, ?_⟩, ?_⟩
      · simp only [composeSystemBalances, hadded, he, bind, Except.bind]
      · rintro ⟨hcovered, hfit⟩
        have hx : x ∈ merchants := by
          rw [hlist]
          exact List.mem_append_right _ List.mem_cons_self
        rcases hfails with hnone | ⟨w, hw, hkey, hapart⟩
        · obtain ⟨w, hw, hwx⟩ := hcovered x hx
          exact hnone w hw hwx
        · rw [hfit w (List.mem_append_right _ hw) x (List.mem_append_left _ hx) hkey] at hapart
          cases hapart
  · right
    refine ⟨⟨e, ?_⟩, ?_⟩
    · simp only [composeSystemBalances, he, bind, Except.bind]
    · rintro ⟨-, hfit⟩
      have hw : w ∈ wallets := by
        rw [hlist]
        exact List.mem_append_right _ List.mem_cons_self
      have hx' : x ∈ wallets := by
        rw [hlist]
        exact List.mem_append_left _ hx
      rw [hfit x (List.mem_append_right _ hx') w (List.mem_append_right _ hw) hkey] at hapart
      cases hapart

/-- One row at most has a key. -/
theorem filter_eq_singleton {m : BalancesMap} {b : Balance} {p : Balance → Bool} (hb : b ∈ m.rows)
    (hp : p b = true) (hkey : ∀ c ∈ m.rows, p c = true → keyFunc c = keyFunc b) :
    m.rows.filter p = [b] := by
  have hmem : b ∈ m.rows.filter p := List.mem_filter.mpr ⟨hb, hp⟩
  have hone : (m.rows.filter p).length ≤ 1 := by
    rw [Table.length_le_one_iff (m.nodup.sublist (List.filter_sublist.map keyFunc))]
    intro c hc d hd
    obtain ⟨hc, hpc⟩ := List.mem_filter.mp hc
    obtain ⟨hd, hpd⟩ := List.mem_filter.mp hd
    exact (hkey c hc hpc).trans (hkey d hd hpd).symm
  match hrows : m.rows.filter p, hmem, hone with
  | [c], hmem, _ => rw [List.mem_singleton.mp hmem]

theorem systemBalancesTotal_iff (merchants wallets : List Balance) :
    SystemBalancesTotal merchants wallets ↔
      Covered merchants wallets ∧ ∀ a ∈ merchants ++ wallets, ∀ b ∈ merchants ++ wallets,
        keyFunc a = keyFunc b → a.Matches b := by
  rcases composeSystemBalances_cases merchants wallets with
    ⟨bs, m, hok, hsummed, hperm⟩ | ⟨⟨e, he⟩, hnot⟩
  · constructor
    · rintro ⟨bs', hbs', htotal⟩
      rw [hok] at hbs'
      cases hbs'
      have hentry : ∀ a ∈ merchants ++ wallets, ∃ c ∈ m.rows, c.place = a.place := by
        intro a ha
        have hone := htotal a ha
        obtain ⟨c, hc, -⟩ := List.map_eq_singleton_iff.mp hone
        have hmem : c ∈ bs.filter fun x => x.place = a.place := by
          rw [hc]
          exact List.mem_singleton_self c
        obtain ⟨hcbs, hplace⟩ := List.mem_filter.mp hmem
        exact ⟨c, hperm.subset hcbs, of_decide_eq_true hplace⟩
      refine ⟨hsummed.covered, ?_⟩
      intro a ha b hb hkey
      constructor
      · obtain ⟨c, hc, hca⟩ := hentry a ha
        obtain ⟨d, hd, hdb⟩ := hentry b hb
        have hcd : keyFunc c = keyFunc d :=
          (keyFunc_of_place hca).trans (hkey.trans (keyFunc_of_place hdb).symm)
        obtain rfl := Table.eq_of_key_eq hc hd hcd
        exact hca.symm.trans hdb
      · obtain ⟨c, hc, hca, hfit⟩ := hsummed.entry ha
        obtain ⟨d, hd, hdb, hfit'⟩ := hsummed.entry hb
        obtain rfl := Table.eq_of_key_eq hc hd (hca.trans (hkey.trans hdb.symm))
        exact compatibleTo_of_left hfit hfit'
    · rintro ⟨-, hmatch⟩
      refine ⟨bs, hok, ?_⟩
      intro b hb
      obtain ⟨c, hc, hcb, -⟩ := hsummed.entry hb
      obtain ⟨w, hw, hwc⟩ := hsummed.made c hc
      have hwb := hmatch w (List.mem_append_right _ hw) b hb ((keyFunc_of_place hwc).trans hcb)
      have hplace : c.place = b.place := hwc.symm.trans hwb.place
      have hrows : m.rows.filter (fun x => x.place = b.place) = [c] := by
        apply filter_eq_singleton hc
        · simpa using hplace
        · intro d _ hd
          exact keyFunc_of_place ((of_decide_eq_true hd).trans hplace.symm)
      have hfiltered : bs.filter (fun x => x.place = b.place) = [c] := by
        have hsorted := hperm.filter fun x => x.place = b.place
        rw [hrows] at hsorted
        exact List.perm_singleton.mp hsorted
      have hsum : ∀ l : List Balance, (∀ x ∈ l, x ∈ merchants ++ wallets) →
          totalAmount (fun x => keyFunc x = keyFunc c) l =
            totalAmount (fun x => x.place = b.place) l := by
        intro l hl
        apply totalAmount_congr
        intro x hx
        constructor
        · intro hkey
          exact (hmatch x (hl x hx) b hb (hkey.trans hcb)).place
        · intro hxb
          exact keyFunc_of_place (hxb.trans hplace.symm)
      rw [hfiltered, List.map_singleton, hsummed.value c hc,
        hsum wallets fun x hx => List.mem_append_right _ hx,
        hsum merchants fun x hx => List.mem_append_left _ hx]
  · constructor
    · rintro ⟨bs, hbs, -⟩
      rw [he] at hbs
      cases hbs
    · rintro ⟨hcovered, hmatch⟩
      exact absurd ⟨hcovered, fun a ha b hb hkey => (hmatch a ha b hb hkey).amounts⟩ hnot

inductive LedgerCall where
  | confirm (merchantID txID : Int) (params : Service.ConfirmTransaction)
  | topup (merchantID : Int) (input : TopupInput)
  | withdrawal (p : UpdateBalancesForWithdrawal)

namespace Service

variable (s : Service)

def ledgerProgram : LedgerCall → Call Unit
  | .confirm merchantID txID params => discard (s.confirm merchantID txID params)
  | .topup merchantID input => discard (s.topupMerchantFromSystem merchantID input)
  | .withdrawal p => updateBalancesForWithdrawal p

def ledgerSystem : System Stmt Reply Env World LockKey Err LedgerCall Move where
  engine := engine
  program := s.ledgerProgram
  move := Move.apply

end Service

def BalanceKey.path (k : BalanceKey) : String :=
  k.currency ++ "/" ++ k.network ++ "/" ++ k.networkID

namespace World

variable (w : World)

def listed (entityType : EntityType) (hideEmpty : Bool) : List Balance :=
  (w.listAllBalancesByType entityType hideEmpty).map entryToBalance

def SystemTotals (hideEmpty : Bool) : Prop :=
  SystemBalancesTotal (w.listed .merchant hideEmpty) (w.listed .wallet hideEmpty)

/-- What merchants have in a currency on a network, some wallet has a part of. -/
def NoneDrained : Prop :=
  ∀ m ∈ w.balances.rows, m.key.entityType = .merchant → 0 < m.amount →
    ∃ x ∈ w.balances.rows, x.key.entityType = .wallet ∧ x.key.place = m.key.place ∧ 0 < x.amount

instance : Decidable w.NoneDrained :=
  inferInstanceAs (Decidable (∀ m ∈ w.balances.rows, m.key.entityType = .merchant →
    0 < m.amount → ∃ x ∈ w.balances.rows, x.key.entityType = .wallet ∧
      x.key.place = m.key.place ∧ 0 < x.amount))

/-- What no update changes: the keys and the decimals. -/
def units : List (BalanceKey × Int) := w.balances.rows.map fun r => (r.key, r.decimals)

end World

/-- Wherever a merchant has a balance, some wallet has one, and a key stands for
one place and one number of decimals. -/
structure Backed (units : List (BalanceKey × Int)) : Prop where
  wallets : ∀ m ∈ units, m.1.entityType = .merchant →
    ∃ x ∈ units, x.1.entityType = .wallet ∧ x.1.place = m.1.place
  keys : ∀ x ∈ units, ∀ y ∈ units, x.1.path = y.1.path → x.1.place = y.1.place ∧ x.2 = y.2

theorem path_of_place {k l : BalanceKey} (h : k.place = l.place) : k.path = l.path := by
  obtain ⟨hcurrency, hnetwork, hnetworkID⟩ : k.currency = l.currency ∧
      k.network = l.network ∧ k.networkID = l.networkID := by
    simpa [BalanceKey.place] using h
  rw [BalanceKey.path, BalanceKey.path, hcurrency, hnetwork, hnetworkID]

theorem mem_listed {w : World} {t : EntityType} {hideEmpty : Bool} {b : Balance} :
    b ∈ w.listed t hideEmpty ↔ ∃ r ∈ w.balances.rows, r.key.entityType = t ∧
      (hideEmpty = true → 0 < r.amount) ∧ entryToBalance r = b := by
  rw [World.listed, World.listAllBalancesByType]
  cases hideEmpty with
  | true => simp [and_assoc]
  | false => simp [and_assoc]

/-- In such a ledger nothing can go wrong but that empty wallets are hidden. -/
theorem Backed.systemTotals_iff {w : World} (h : Backed w.units) (hideEmpty : Bool) :
    w.SystemTotals hideEmpty ↔ (hideEmpty = true → w.NoneDrained) := by
  have hunit : ∀ r ∈ w.balances.rows, (r.key, r.decimals) ∈ w.units :=
    fun r hr => List.mem_map_of_mem hr
  have hmatch : ∀ a ∈ w.listed .merchant hideEmpty ++ w.listed .wallet hideEmpty,
      ∀ b ∈ w.listed .merchant hideEmpty ++ w.listed .wallet hideEmpty,
        keyFunc a = keyFunc b → a.Matches b := by
    have hrow : ∀ a ∈ w.listed .merchant hideEmpty ++ w.listed .wallet hideEmpty,
        ∃ r ∈ w.balances.rows, entryToBalance r = a := by
      intro a ha
      rcases List.mem_append.mp ha with hm | hw
      · obtain ⟨r, hr, -, -, hra⟩ := mem_listed.mp hm
        exact ⟨r, hr, hra⟩
      · obtain ⟨r, hr, -, -, hra⟩ := mem_listed.mp hw
        exact ⟨r, hr, hra⟩
    intro a ha b hb hkey
    obtain ⟨r, hr, rfl⟩ := hrow a ha
    obtain ⟨x, hx, rfl⟩ := hrow b hb
    obtain ⟨hplace, hdecimals⟩ := h.keys _ (hunit r hr) _ (hunit x hx) hkey
    refine ⟨hplace, Money.compatibleTo_iff.mpr ⟨?_, hdecimals⟩⟩
    exact congrArg (·.1) hplace
  rw [World.SystemTotals, systemBalancesTotal_iff]
  constructor
  · rintro ⟨hcovered, -⟩ rfl m hm htype hpos
    obtain ⟨b, hb, hkey⟩ := hcovered (entryToBalance m)
      (mem_listed.mpr ⟨m, hm, htype, fun _ => hpos, rfl⟩)
    obtain ⟨x, hx, hwallet, hxpos, rfl⟩ := mem_listed.mp hb
    exact ⟨x, hx, hwallet, (h.keys _ (hunit x hx) _ (hunit m hm) hkey).1, hxpos rfl⟩
  · intro hdrained
    refine ⟨?_, hmatch⟩
    intro b hb
    obtain ⟨m, hm, htype, hpos, rfl⟩ := mem_listed.mp hb
    cases hideEmpty with
    | true =>
      obtain ⟨x, hx, hwallet, hplace, hxpos⟩ := hdrained rfl m hm htype (hpos rfl)
      exact ⟨entryToBalance x, mem_listed.mpr ⟨x, hx, hwallet, fun _ => hxpos, rfl⟩,
        path_of_place hplace⟩
    | false =>
      obtain ⟨u, hu, hwallet, hplace⟩ := h.wallets _ (hunit m hm) htype
      obtain ⟨x, hx, rfl⟩ := List.mem_map.mp hu
      exact ⟨entryToBalance x, mem_listed.mpr ⟨x, hx, hwallet, (fun h => by cases h), rfl⟩,
        path_of_place hplace⟩

/-- The balance row that an entry of a log creates. -/
def opened (e : Entry Stmt Env World) : Option CreateBalanceParams :=
  match e.stmt with
  | .createBalance p => if e.env.fate ≠ .refused ∧ e.seen.balanceFits p = true then some p else none
  | _ => none

/-- A merchant's first balance of a currency on a network comes after one of a
wallet, and a balance of a known key is of its place and has its decimals. -/
def OpensBacked (e : Entry Stmt Env World) (w : World) : Prop :=
  ∀ p ∈ opened e,
    (p.key.entityType = .merchant → ∃ x ∈ w.balances.rows, x.key.entityType = .wallet ∧
      x.key.place = p.key.place) ∧
    ∀ x ∈ w.balances.rows, x.key.path = p.key.path →
      x.key.place = p.key.place ∧ x.decimals = p.decimals

instance (e : Entry Stmt Env World) (w : World) : Decidable (OpensBacked e w) :=
  inferInstanceAs (Decidable (∀ p ∈ opened e,
    (p.key.entityType = .merchant → ∃ x ∈ w.balances.rows, x.key.entityType = .wallet ∧
      x.key.place = p.key.place) ∧
    ∀ x ∈ w.balances.rows, x.key.path = p.key.path →
      x.key.place = p.key.place ∧ x.decimals = p.decimals))

theorem units_congr {w u : World} (h : u.balances = w.balances) : u.units = w.units := by
  rw [World.units, World.units, h]

/-- The units of a ledger change only by a row that is created. -/
theorem units_effect (e : Entry Stmt Env World) (w : World) :
    (engine.effect e.stmt e.env e.seen w).units = w.units ∨
      ∃ p ∈ opened e, (engine.effect e.stmt e.env e.seen w).units =
        w.units ++ [(p.key, p.decimals)] := by
  obtain ⟨st, env, seen⟩ := e
  by_cases hrefused : env.fate = .refused
  · left
    rw [engine_effect, if_pos hrefused]
  have heffect : engine.effect st env seen w = World.effect st env seen w := by
    rw [engine_effect, if_neg hrefused]
  by_cases hchanges : st.changes = some .balances
  swap
  · left
    apply units_congr
    show (engine.effect st env seen w).balances = w.balances
    rw [heffect]
    exact World.effect_balances hchanges
  cases st <;> simp only [Stmt.changes, Option.some.injEq, reduceCtorEq] at hchanges
  case createBalance p =>
    by_cases hfit : seen.balanceFits p = true
    · have hrows : (engine.effect (.createBalance p) env seen w).balances =
          w.balances.insert (World.newBalance p) := by
        rw [heffect]
        simp only [World.effect, hfit, if_true]
      simp only [World.units, hrows, Table.rows_insert]
      split
      · exact .inl rfl
      · right
        refine ⟨p, ?_, ?_⟩
        · simp only [opened, hrefused, hfit, ne_eq, not_false_eq_true, and_self, if_true]
          rfl
        · rw [List.map_append]
          rfl
    · left
      apply units_congr
      rw [heffect]
      simp only [World.effect, hfit]
      rfl
  case updateBalanceByID p =>
    left
    simp only [heffect, World.effect]
    split
    · rfl
    · simp only [World.units, Table.rows_modify, List.map_map]
      apply List.map_congr_left
      intro r _
      simp only [Function.comp_apply]
      split
      · rfl
      · rfl

theorem Backed.open {units : List (BalanceKey × Int)} (h : Backed units) {k : BalanceKey} {d : Int}
    (hwallet : k.entityType = .merchant →
      ∃ x ∈ units, x.1.entityType = .wallet ∧ x.1.place = k.place)
    (hkeys : ∀ x ∈ units, x.1.path = k.path → x.1.place = k.place ∧ x.2 = d) :
    Backed (units ++ [(k, d)]) := by
  constructor
  · intro m hm htype
    have hfound : ∃ x ∈ units, x.1.entityType = .wallet ∧ x.1.place = m.1.place := by
      rcases List.mem_append.mp hm with hold | hnew
      · exact h.wallets m hold htype
      · obtain rfl := List.mem_singleton.mp hnew
        exact hwallet htype
    obtain ⟨x, hx, hfound⟩ := hfound
    exact ⟨x, List.mem_append_left _ hx, hfound⟩
  · intro x hx y hy hpath
    rw [List.mem_append, List.mem_singleton] at hx hy
    rcases hx with hx | rfl
    · rcases hy with hy | rfl
      · exact h.keys x hx y hy hpath
      · exact hkeys x hx hpath
    · rcases hy with hy | rfl
      · obtain ⟨hplace, hdecimals⟩ := hkeys y hy hpath.symm
        exact ⟨hplace.symm, hdecimals.symm⟩
      · exact ⟨rfl, rfl⟩

theorem Backed.effect {e : Entry Stmt Env World} {w : World} (h : Backed w.units)
    (hok : OpensBacked e w) : Backed (engine.effect e.stmt e.env e.seen w).units := by
  rcases units_effect e w with hsame | ⟨p, hp, hnew⟩
  · rw [hsame]
    exact h
  · rw [hnew]
    obtain ⟨hwallet, hkeys⟩ := hok p hp
    apply h.open
    · intro htype
      obtain ⟨x, hx, hfound⟩ := hwallet htype
      exact ⟨_, List.mem_map_of_mem hx, hfound⟩
    · intro u hu hpath
      obtain ⟨x, hx, rfl⟩ := List.mem_map.mp hu
      exact hkeys x hx hpath

theorem ledgerKeeper (s : Service) : Keeper s.ledgerSystem (fun _ => True) OpensBacked
    (fun w u => Backed w.units → Backed u.units) where
  refl _ h := h
  trans hfirst hthen h := hthen (hfirst h)
  program _ := Issues.always fun _ _ _ _ => trivial
  effect _ _ _ hok h := h.effect hok
  lasting st env w _ h := by
    show Backed (engine.lasting st env w).units
    rw [units_congr (engine_lasting_balances st env w)]
    exact h
  move m w h := by
    show Backed (m.apply w).units
    rw [units_congr (Move.apply_balances m w)]
    exact h

/-- In every run in which merchants' balances open where wallets have theirs,
the system balances are the totals, unless empty rows are hidden and a currency
is left that merchants have and no wallet. -/
theorem system_balances_total_iff (s : Service) {w : World} (hw : w.balances = .empty)
    (es : List (Event Env Move LedgerCall))
    (hrun : s.ledgerSystem.Along (s.ledgerSystem.Landing OpensBacked) ⟨w, []⟩ es)
    (hideEmpty : Bool) :
    (s.ledgerSystem.run ⟨w, []⟩ es).world.SystemTotals hideEmpty ↔
      (hideEmpty = true → (s.ledgerSystem.run ⟨w, []⟩ es).world.NoneDrained) := by
  have hstart : Backed w.units := by
    rw [World.units, hw]
    constructor
    · intro m hm
      cases hm
    · intro x hx
      cases hx
  have hbacked := ((ledgerKeeper s).run (issued_of_no_threads _ w) hrun).2 hstart
  exact hbacked.systemTotals_iff hideEmpty

namespace Sample

/-- 100 ether have arrived, at the wallet or at the merchant's collector. -/
def arrived (recipientWalletID : Option Int) : World :=
  { noMoney with
    transactions := noMoney.transactions.insert
      { invoice .inProgress (some "0xa") (some "payer") (some 100) with
        recipientWalletID := recipientWalletID } }

def confirmation : Service.ConfirmTransaction where
  status := .completed
  senderAddress := "payer"
  transactionHash := "0xa"
  factAmount := Money.crypto "ETH" 100 0
  networkFee := Money.crypto "ETH" 1 0
  metaData := []
  allowZeroNetworkFee := false

def confirming : List (Event Env Move LedgerCall) :=
  .start (.confirm 7 1 confirmation) :: List.replicate 20 (.exec 0 {})

end Sample

open Sample in
theorem wallet_confirmation_totals :
    (service.ledgerSystem.run ⟨arrived (some 2), []⟩ confirming).world.balances.rows.map
        (fun r => (r.key, r.amount)) =
      [(⟨.wallet, 2, "ETH", "1", "ETH"⟩, 100), (⟨.merchant, 7, "ETH", "1", "ETH"⟩, 100)] ∧
    ((service.ledgerSystem.run ⟨arrived (some 2), []⟩ confirming).world.SystemTotals true ↔
      (true = true →
        (service.ledgerSystem.run ⟨arrived (some 2), []⟩ confirming).world.NoneDrained)) :=
  ⟨by decide +kernel, system_balances_total_iff service rfl confirming (by decide +kernel) true⟩

open Sample in
/-- Ether that went to a collector is the merchant's and no wallet's: the system
balances cannot be computed. -/
theorem collector_confirmation_has_no_totals :
    ¬ ∀ (s : Service) (w : World), w.balances = .empty →
      ∀ (es : List (Event Env Move LedgerCall)) (hideEmpty : Bool),
        (s.ledgerSystem.run ⟨w, []⟩ es).world.SystemTotals hideEmpty := by
  intro h
  obtain ⟨bs, hbs, -⟩ := h service (arrived none) rfl confirming false
  have hfails : (composeSystemBalances
      ((service.ledgerSystem.run ⟨arrived none, []⟩ confirming).world.listed .merchant false)
      ((service.ledgerSystem.run ⟨arrived none, []⟩ confirming).world.listed .wallet
        false)).toOption = none := by decide +kernel
  rw [hbs] at hfails
  cases hfails

end CryptoLink
