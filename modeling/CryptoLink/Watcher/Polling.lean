import CryptoLink.Watcher.Evm
import CryptoLink.Watcher.Tron

/-!
# What a cycle polls for

The pending invoices read at the top of a cycle, chain by chain, and the slots
they end up in.
-/

namespace CryptoLink

open KeyedTables

namespace Service

variable (s : Service)

/-- The filter of `PollPendingTransactions`. -/
def pendingIncoming : Filter where
  types := [.incoming]
  statuses := [.pending]
  hashIsEmpty := true

def pendingLimit : ℕ := 200

/-- The rows of one cycle, newest first; a row without a currency fails all of
them. -/
def pendingTransactions (w : World) : Except Err (List Transaction) :=
  (w.getTransactionsByFilter (pendingIncoming.toRepo pendingLimit)).mapM s.entryToTransaction

end Service

/-- `ConfirmedFillSumsByTxIDs`: nothing is stored for a sum of zero. -/
def confirmedFillSums (w : World) (id : Int) : Option Int :=
  if w.sumConfirmedFillsForTx id = 0 then none else some (w.sumConfirmedFillsForTx id)

/-- The group of one chain. -/
def chainTransactions (bc : Blockchain) (isTest : Bool) (txs : List Transaction) :
    List Transaction :=
  txs.filter fun tx => tx.currency.blockchain = bc && tx.isTest = isTest

def pendingInfo (sums : Int → Option Int) (tx : Transaction) : PendingInfo :=
  ⟨tx, tx.recipientWalletID, computeRemaining sums tx⟩

/-- The three pollers `pollChainTransactions` chooses from. -/
inductive Poller where
  | evm
  | btc
  | tron
  deriving DecidableEq, Repr

def poller (bc : Blockchain) : Option Poller :=
  if bc ∈ ["ETH", "MATIC", "BSC", "ARBITRUM", "AVAX"] then some .evm
  else if bc = "BTC" then some .btc
  else if bc = "TRON" then some .tron
  else none

namespace Evm

variable {A β : Type} [DecidableEq A]

theorem lookup_upsert [BEq A] [LawfulBEq A] (empty : β) (f : β → β) (a b : A)
    (m : List (A × β)) :
    (upsert empty f a m).lookup b =
      if b = a then some (f ((m.lookup a).getD empty)) else m.lookup b := by
  induction m with
  | nil =>
    by_cases h : b = a
    · simp [upsert, h]
    · have hb : (b == a) = false := by simpa using h
      simp [upsert, h, List.lookup_cons, hb]
  | cons p rest ih =>
    obtain ⟨k, x⟩ := p
    by_cases hk : k = a
    · subst hk
      by_cases h : b = k
      · simp [upsert, h]
      · have hb : (b == k) = false := by simpa using h
        simp [upsert, h, List.lookup_cons, hb]
    · simp only [upsert, if_neg hk, List.lookup_cons]
      by_cases hb : b = k
      · subst hb
        simp [hk]
      · have hb' : (b == k) = false := by simpa using hb
        have ha' : (a == k) = false := by
          have : ¬ a = k := fun h => hk h.symm
          simpa using this
        simp only [hb', ha', ih]

/-- The slots of the coin at one collector. -/
def nativeSlots (w : Watched A) (a : A) : List PendingInfo :=
  (w.nativeAddressesContract.lookup a).getD []

/-- The slots of one token at one address. -/
def tokenSlots (w : Watched A) (contract a : A) : List PendingInfo :=
  (((w.tokenAddresses.lookup contract).getD []).lookup a).getD []

theorem lookup_addSlot (a b : A) (info : PendingInfo) (m : Slots A) :
    ((addSlot a info m).lookup b).getD [] =
      (m.lookup b).getD [] ++ if b = a then [info] else [] := by
  unfold addSlot
  rw [lookup_upsert]
  by_cases h : b = a
  · subst h
    simp
  · simp [h]

/-- Whether an invoice takes a slot of the coin at collector `a`. -/
def waitsNative (fmt : AddressFormat A) (a : A) (tx : Transaction) : Bool :=
  tx.recipientAddress ≠ "" && fmt.hexToAddress tx.recipientAddress = a &&
    tx.currency.type = .coin && tx.recipientWalletID.isNone

/-- Whether an invoice takes a slot of the token `contract` at `a`. -/
def waitsToken (fmt : AddressFormat A) (contract a : A) (tx : Transaction) : Bool :=
  tx.recipientAddress ≠ "" && fmt.hexToAddress tx.recipientAddress = a &&
    tx.currency.type = .token && tx.currency.tokenContractAddress ≠ "" &&
    fmt.hexToAddress (tx.currency.chooseContractAddress tx.isTest) = contract

section

variable (fmt : AddressFormat A) (sums : Int → Option Int)

theorem nativeSlots_register (w : Watched A) (tx : Transaction) (a : A) :
    nativeSlots (register fmt sums w tx) a =
      nativeSlots w a ++ if waitsNative fmt a tx then [pendingInfo sums tx] else [] := by
  unfold register getRecipientAddress
  by_cases haddr : tx.recipientAddress = ""
  · simp [haddr, waitsNative]
  · have hcol : ∀ (b : Bool) (cs : List A) (w : Watched A), nativeSlots
        (if b = true then { w with collectorContracts := cs } else w) a = nativeSlots w a := by
      intro b cs w
      cases b <;> rfl
    simp only [haddr, if_false]
    cases htype : tx.currency.type with
    | coin =>
      by_cases hwallet : tx.recipientWalletID.isNone = true
      · simp only [hwallet, if_true]
        rw [nativeSlots, lookup_addSlot, ← nativeSlots, hcol]
        by_cases ha : fmt.hexToAddress tx.recipientAddress = a
        · simp [waitsNative, haddr, ha, htype, hwallet, pendingInfo]
        · have ha' : ¬ a = fmt.hexToAddress tx.recipientAddress := fun h => ha h.symm
          simp [waitsNative, ha, ha']
      · simp only [hwallet]
        have hnot : waitsNative fmt a tx = false := by simp [waitsNative, hwallet]
        simp only [hnot, Bool.false_eq_true, if_false, List.append_nil]
        exact hcol _ _ w
    | token =>
      have hnot : waitsNative fmt a tx = false := by simp [waitsNative, htype]
      simp only [hnot, Bool.false_eq_true, if_false, List.append_nil]
      split
      · exact hcol _ _ w
      · exact hcol _ _ w

theorem tokenSlots_register (w : Watched A) (tx : Transaction) (contract a : A) :
    tokenSlots (register fmt sums w tx) contract a =
      tokenSlots w contract a ++
        if waitsToken fmt contract a tx then [pendingInfo sums tx] else [] := by
  unfold register getRecipientAddress
  by_cases haddr : tx.recipientAddress = ""
  · simp [haddr, waitsToken]
  · have hcol : ∀ (b : Bool) (cs : List A) (w : Watched A), tokenSlots
        (if b = true then { w with collectorContracts := cs } else w) contract a =
          tokenSlots w contract a := by
      intro b cs w
      cases b <;> rfl
    simp only [haddr, if_false]
    cases htype : tx.currency.type with
    | coin =>
      have hnot : waitsToken fmt contract a tx = false := by simp [waitsToken, htype]
      simp only [hnot, Bool.false_eq_true, if_false, List.append_nil]
      split
      · exact hcol _ _ w
      · exact hcol _ _ w
    | token =>
      by_cases hcontract : tx.currency.tokenContractAddress ≠ ""
      · simp only [if_pos hcontract]
        have hstep : ∀ w : Watched A, tokenSlots { w with
            tokenAddresses := upsert [] (addSlot (fmt.hexToAddress tx.recipientAddress)
              (pendingInfo sums tx)) (fmt.hexToAddress (tx.currency.chooseContractAddress
                tx.isTest)) w.tokenAddresses } contract a =
            tokenSlots w contract a ++
              if waitsToken fmt contract a tx then [pendingInfo sums tx] else [] := by
          intro w
          simp only [tokenSlots]
          rw [lookup_upsert]
          by_cases hk : contract = fmt.hexToAddress (tx.currency.chooseContractAddress tx.isTest)
          · rw [if_pos hk, Option.getD_some, lookup_addSlot, ← hk]
            by_cases ha : fmt.hexToAddress tx.recipientAddress = a
            · simp [waitsToken, haddr, ha, htype, hcontract, ← hk]
            · have ha' : ¬ a = fmt.hexToAddress tx.recipientAddress := fun h => ha h.symm
              simp [waitsToken, ha, ha']
          · have hk' : ¬ fmt.hexToAddress (tx.currency.chooseContractAddress tx.isTest) =
                contract := fun h => hk h.symm
            simp [waitsToken, hk, hk']
        exact (hstep _).trans (by rw [hcol])
      · have hnot : waitsToken fmt contract a tx = false := by simp_all [waitsToken]
        simp only [if_neg hcontract, hnot, Bool.false_eq_true, if_false, List.append_nil]
        exact hcol _ _ w

theorem nativeSlots_registered (txs : List Transaction) (w : Watched A) (a : A) :
    nativeSlots (txs.foldl (register fmt sums) w) a =
      nativeSlots w a ++ (txs.filter (waitsNative fmt a)).map (pendingInfo sums) := by
  induction txs generalizing w with
  | nil => simp
  | cons tx txs ih =>
    rw [List.foldl_cons, ih, nativeSlots_register, List.append_assoc]
    by_cases h : waitsNative fmt a tx = true
    · simp [h]
    · simp [h]

theorem tokenSlots_registered (txs : List Transaction) (w : Watched A) (contract a : A) :
    tokenSlots (txs.foldl (register fmt sums) w) contract a =
      tokenSlots w contract a ++
        (txs.filter (waitsToken fmt contract a)).map (pendingInfo sums) := by
  induction txs generalizing w with
  | nil => simp
  | cons tx txs ih =>
    rw [List.foldl_cons, ih, tokenSlots_register, List.append_assoc]
    by_cases h : waitsToken fmt contract a tx = true
    · simp [h]
    · simp [h]

/-- An empty slot holds no invoice. -/
theorem lookup_upsert_id (a b : A) (m : Slots A) :
    ((upsert [] id a m).lookup b).getD [] = (m.lookup b).getD [] := by
  rw [lookup_upsert]
  by_cases h : b = a
  · simp [h]
  · simp [h]

variable (isTest : Bool) (chainTokens : List CryptoCurrency)

/-- Two lookup maps with the same invoices in every slot. -/
def SameSlots (w w' : Watched A) : Prop :=
  (∀ a, nativeSlots w a = nativeSlots w' a) ∧
    ∀ contract a, tokenSlots w contract a = tokenSlots w' contract a

theorem SameSlots.foldl {γ : Type} {f : Watched A → γ → Watched A}
    (hf : ∀ w x, SameSlots (f w x) w) (xs : List γ) (w : Watched A) :
    SameSlots (xs.foldl f w) w := by
  induction xs generalizing w with
  | nil => exact ⟨fun _ => rfl, fun _ _ => rfl⟩
  | cons x xs ih =>
    obtain ⟨hnative, htoken⟩ := ih (f w x)
    obtain ⟨hnative', htoken'⟩ := hf w x
    exact ⟨fun a => (hnative a).trans (hnative' a),
      fun contract a => (htoken contract a).trans (htoken' contract a)⟩

theorem sameSlots_broadenToken (col : A) (w : Watched A) (cur : CryptoCurrency) :
    SameSlots (broadenToken fmt isTest col w cur) w := by
  unfold broadenToken
  split
  · exact ⟨fun _ => rfl, fun _ _ => rfl⟩
  · refine ⟨fun _ => rfl, fun contract a => ?_⟩
    simp only [tokenSlots]
    rw [lookup_upsert]
    by_cases hk : contract = fmt.hexToAddress (cur.chooseContractAddress isTest)
    · rw [if_pos hk, Option.getD_some, lookup_upsert_id, hk]
    · rw [if_neg hk]

theorem sameSlots_broaden (w : Watched A) : SameSlots (broaden fmt isTest chainTokens w) w := by
  refine SameSlots.foldl (fun w col => ?_) w.collectorContracts w
  obtain ⟨hnative, htoken⟩ := SameSlots.foldl (sameSlots_broadenToken fmt isTest col) chainTokens
    { w with nativeAddressesContract := upsert [] id col w.nativeAddressesContract }
  refine ⟨fun a => (hnative a).trans ?_, fun contract a => htoken contract a⟩
  exact lookup_upsert_id col a w.nativeAddressesContract

/-- The slots of the coin at a collector: its invoices, in the order they were
read. -/
theorem nativeSlots_watch (txs : List Transaction) (a : A) :
    nativeSlots (watch fmt isTest sums chainTokens txs) a =
      (txs.filter (waitsNative fmt a)).map (pendingInfo sums) := by
  unfold watch
  rw [(sameSlots_broaden fmt isTest chainTokens _).1, nativeSlots_registered]
  rfl

theorem tokenSlots_watch (txs : List Transaction) (contract a : A) :
    tokenSlots (watch fmt isTest sums chainTokens txs) contract a =
      (txs.filter (waitsToken fmt contract a)).map (pendingInfo sums) := by
  unfold watch
  rw [(sameSlots_broaden fmt isTest chainTokens _).2, tokenSlots_registered]
  rfl

/-- Whether a transfer of the coin to `a` is looked at. -/
def opensNative (w : Watched A) (a : A) : Bool := (w.nativeAddressesContract.lookup a).isSome

/-- Whether a transfer of the token `contract` to `a` is looked at. -/
def opensToken (w : Watched A) (contract a : A) : Bool :=
  (((w.tokenAddresses.lookup contract).getD []).lookup a).isSome

/-- Whether an invoice makes its address a collector. -/
def collectsAt (fmt : AddressFormat A) (a : A) (tx : Transaction) : Bool :=
  tx.recipientAddress ≠ "" && fmt.hexToAddress tx.recipientAddress = a &&
    tx.recipientWalletID.isNone

/-- Whether a currency is the token `contract`. -/
def isTokenAt (fmt : AddressFormat A) (isTest : Bool) (contract : A) (cur : CryptoCurrency) :
    Bool :=
  cur.type = .token && cur.chooseContractAddress isTest ≠ "" &&
    fmt.hexToAddress (cur.chooseContractAddress isTest) = contract

theorem isSome_lookup_upsert (empty : β) (f : β → β) (a b : A) (m : List (A × β)) :
    ((upsert empty f a m).lookup b).isSome = (decide (b = a) || (m.lookup b).isSome) := by
  rw [lookup_upsert]
  by_cases h : b = a
  · simp [h]
  · simp [h]

theorem opensToken_upsert (f : Slots A → Slots A) (col : A)
    (hf : ∀ m b, ((f m).lookup b).isSome = (decide (b = col) || (m.lookup b).isSome))
    (w : Watched A) (contract' contract a : A) :
    opensToken { w with tokenAddresses := upsert [] f contract' w.tokenAddresses } contract a =
      (opensToken w contract a || (decide (contract' = contract) && decide (a = col))) := by
  unfold opensToken
  rw [lookup_upsert]
  by_cases h : contract = contract'
  · subst h
    simp [hf, Bool.or_comm]
  · have h' : ¬ contract' = contract := fun h' => h h'.symm
    simp [h, h']

theorem contains_register (w : Watched A) (tx : Transaction) (a : A) :
    (register fmt sums w tx).collectorContracts.contains a =
      (w.collectorContracts.contains a || collectsAt fmt a tx) := by
  unfold register getRecipientAddress
  by_cases haddr : tx.recipientAddress = ""
  · simp [haddr, collectsAt]
  · have hcol : (if (tx.recipientWalletID.isNone &&
        !w.collectorContracts.contains (fmt.hexToAddress tx.recipientAddress)) = true then
          { w with collectorContracts :=
              w.collectorContracts ++ [fmt.hexToAddress tx.recipientAddress] }
        else w).collectorContracts.contains a =
          (w.collectorContracts.contains a || collectsAt fmt a tx) := by
      by_cases ha : fmt.hexToAddress tx.recipientAddress = a
      · subst ha
        by_cases hwallet : tx.recipientWalletID.isNone = true
        · by_cases hin : fmt.hexToAddress tx.recipientAddress ∈ w.collectorContracts
          · simp [hwallet, hin]
          · simp [collectsAt, haddr, hwallet, hin]
        · simp [collectsAt, hwallet]
      · have ha' : ¬ a = fmt.hexToAddress tx.recipientAddress := fun h => ha h.symm
        split
        · simp [collectsAt, ha, ha']
        · simp [collectsAt, ha]
    simp only [haddr, if_false]
    cases tx.currency.type with
    | coin =>
      by_cases hwallet : tx.recipientWalletID.isNone = true
      · rw [if_pos hwallet]
        exact hcol
      · rw [if_neg hwallet]
        exact hcol
    | token =>
      by_cases hcontract : tx.currency.tokenContractAddress ≠ ""
      · rw [if_pos hcontract]
        exact hcol
      · rw [if_neg hcontract]
        exact hcol

theorem opensNative_register (w : Watched A) (tx : Transaction) (a : A) :
    opensNative (register fmt sums w tx) a = (opensNative w a || waitsNative fmt a tx) := by
  unfold register getRecipientAddress
  by_cases haddr : tx.recipientAddress = ""
  · simp [haddr, waitsNative]
  · have hcol : ∀ (b : Bool) (cs : List A), opensNative
        (if b = true then { w with collectorContracts := cs } else w) a = opensNative w a := by
      intro b cs
      cases b <;> rfl
    simp only [haddr, if_false]
    cases htype : tx.currency.type with
    | coin =>
      by_cases hwallet : tx.recipientWalletID.isNone = true
      · simp only [hwallet, if_true]
        rw [opensNative, addSlot, isSome_lookup_upsert, ← opensNative, hcol, Bool.or_comm]
        by_cases ha : fmt.hexToAddress tx.recipientAddress = a
        · simp [waitsNative, haddr, ha, htype, hwallet]
        · have ha' : ¬ a = fmt.hexToAddress tx.recipientAddress := fun h => ha h.symm
          simp [waitsNative, ha, ha']
      · have hnot : waitsNative fmt a tx = false := by simp [waitsNative, hwallet]
        rw [if_neg hwallet, hnot, Bool.or_false]
        exact hcol _ _
    | token =>
      have hnot : waitsNative fmt a tx = false := by simp [waitsNative, htype]
      simp only [hnot, Bool.or_false]
      split
      · exact hcol _ _
      · exact hcol _ _

theorem opensToken_register (w : Watched A) (tx : Transaction) (contract a : A) :
    opensToken (register fmt sums w tx) contract a =
      (opensToken w contract a || waitsToken fmt contract a tx) := by
  unfold register getRecipientAddress
  by_cases haddr : tx.recipientAddress = ""
  · simp [haddr, waitsToken]
  · have hcol : ∀ (b : Bool) (cs : List A), opensToken
        (if b = true then { w with collectorContracts := cs } else w) contract a =
          opensToken w contract a := by
      intro b cs
      cases b <;> rfl
    simp only [haddr, if_false]
    cases htype : tx.currency.type with
    | coin =>
      have hnot : waitsToken fmt contract a tx = false := by simp [waitsToken, htype]
      simp only [hnot, Bool.or_false]
      split
      · exact hcol _ _
      · exact hcol _ _
    | token =>
      by_cases hcontract : tx.currency.tokenContractAddress ≠ ""
      · simp only [if_pos hcontract]
        have hslot : ∀ (m : Slots A) b, ((addSlot (fmt.hexToAddress tx.recipientAddress)
            (pendingInfo sums tx) m).lookup b).isSome =
              (decide (b = fmt.hexToAddress tx.recipientAddress) || (m.lookup b).isSome) :=
          fun m b => isSome_lookup_upsert _ _ _ _ _
        refine (opensToken_upsert _ _ hslot _ _ contract a).trans ?_
        rw [hcol, Bool.eq_iff_iff, Bool.or_eq_true, Bool.or_eq_true]
        refine or_congr_right ?_
        simp only [waitsToken, haddr, htype, hcontract, Bool.and_eq_true, decide_eq_true_eq,
          ne_eq, not_false_eq_true, decide_true, true_and, and_true]
        constructor
        · rintro ⟨hk, ha⟩
          exact ⟨ha.symm, hk⟩
        · rintro ⟨ha, hk⟩
          exact ⟨hk, ha.symm⟩
      · have hnot : waitsToken fmt contract a tx = false := by simp_all [waitsToken]
        rw [if_neg hcontract, hnot, Bool.or_false]
        exact hcol _ _

/-- What a fold adds, element by element. -/
theorem foldl_or {γ δ : Type} {f : δ → γ → δ} {g : δ → Bool} {p : γ → Bool}
    (h : ∀ d x, g (f d x) = (g d || p x)) (xs : List γ) (d : δ) :
    g (xs.foldl f d) = (g d || xs.any p) := by
  induction xs generalizing d with
  | nil => simp
  | cons x xs ih => rw [List.foldl_cons, ih, h, List.any_cons, Bool.or_assoc]

theorem opens_broadenToken (col : A) (w : Watched A) (cur : CryptoCurrency) (contract a : A) :
    opensToken (broadenToken fmt isTest col w cur) contract a =
      (opensToken w contract a || (decide (a = col) && isTokenAt fmt isTest contract cur)) := by
  unfold broadenToken
  split
  · rename_i hnone
    have hnot : isTokenAt fmt isTest contract cur = false := by
      unfold isTokenAt
      rcases hnone with hcoin | hempty
      · simp [hcoin]
      · simp [hempty]
    simp [hnot]
  · rename_i hsome
    obtain ⟨htoken, hcontract⟩ := not_or.mp hsome
    have hslot : ∀ (m : Slots A) b, ((upsert [] id col m).lookup b).isSome =
        (decide (b = col) || (m.lookup b).isSome) := fun m b => isSome_lookup_upsert _ _ _ _ _
    refine (opensToken_upsert _ _ hslot _ _ contract a).trans ?_
    simp [isTokenAt, not_not.mp htoken, hcontract, Bool.and_comm]

theorem opens_broadenCollector (w : Watched A) (col contract a : A) :
    opensNative (broadenCollector fmt isTest chainTokens w col) a =
        (opensNative w a || decide (a = col)) ∧
      opensToken (broadenCollector fmt isTest chainTokens w col) contract a =
        (opensToken w contract a || (decide (a = col) && chainTokens.any
          (isTokenAt fmt isTest contract))) := by
  have hkeep : ∀ (cur : CryptoCurrency) (w : Watched A),
      (broadenToken fmt isTest col w cur).nativeAddressesContract = w.nativeAddressesContract := by
    intro cur w
    unfold broadenToken
    split
    · rfl
    · rfl
  have hnative : ∀ (tokens : List CryptoCurrency) (w : Watched A),
      (tokens.foldl (broadenToken fmt isTest col) w).nativeAddressesContract =
        w.nativeAddressesContract := by
    intro tokens
    induction tokens with
    | nil => exact fun _ => rfl
    | cons cur rest ih => exact fun w => (ih _).trans (hkeep cur w)
  constructor
  · unfold broadenCollector opensNative
    rw [hnative, isSome_lookup_upsert, Bool.or_comm]
  · have htokens := foldl_or (g := fun w : Watched A => opensToken w contract a)
      (fun w cur => opens_broadenToken fmt isTest col w cur contract a) chainTokens
      { w with nativeAddressesContract := upsert [] id col w.nativeAddressesContract }
    refine htokens.trans ?_
    by_cases ha : a = col
    · simp [ha, opensToken]
    · simp [ha, opensToken]

/-- A transfer of the coin is looked at where an invoice has its collector. -/
theorem opensNative_watch (txs : List Transaction) (a : A) :
    opensNative (watch fmt isTest sums chainTokens txs) a = txs.any (collectsAt fmt a) := by
  have hregistered := foldl_or (g := fun w : Watched A => opensNative w a)
    (fun w tx => opensNative_register fmt sums w tx a) txs ⟨[], [], [], []⟩
  have hcollectors := foldl_or (g := fun w : Watched A => w.collectorContracts.contains a)
    (fun w tx => contains_register fmt sums w tx a) txs ⟨[], [], [], []⟩
  have hbroadened := foldl_or (g := fun w : Watched A => opensNative w a)
    (fun w col => (opens_broadenCollector fmt isTest chainTokens w col a a).1)
    (txs.foldl (register fmt sums) ⟨[], [], [], []⟩).collectorContracts
    (txs.foldl (register fmt sums) ⟨[], [], [], []⟩)
  have hany : ∀ cols : List A, (cols.any fun col => decide (a = col)) = cols.contains a := by
    intro cols
    rw [Bool.eq_iff_iff]
    simp
  refine hbroadened.trans ?_
  rw [hregistered, hany, hcollectors, Bool.eq_iff_iff]
  constructor
  · intro h
    simp only [opensNative, List.lookup_nil, Option.isSome_none, Bool.false_or, Bool.or_eq_true,
      List.contains_nil] at h
    rcases h with hwaits | hcollects
    · obtain ⟨tx, htx, hwaits⟩ := List.any_eq_true.mp hwaits
      refine List.any_eq_true.mpr ⟨tx, htx, ?_⟩
      simp only [waitsNative, Bool.and_eq_true] at hwaits
      simp only [collectsAt, Bool.and_eq_true]
      exact ⟨hwaits.1.1, hwaits.2⟩
    · exact hcollects
  · intro h
    simp [h]

/-- A transfer of a token is looked at where an invoice waits for it, and at every
collector if the chain lists the token. -/
theorem opensToken_watch (txs : List Transaction) (contract a : A) :
    opensToken (watch fmt isTest sums chainTokens txs) contract a =
      (txs.any (waitsToken fmt contract a) ||
        (txs.any (collectsAt fmt a) && chainTokens.any (isTokenAt fmt isTest contract))) := by
  have hregistered := foldl_or (g := fun w : Watched A => opensToken w contract a)
    (fun w tx => opensToken_register fmt sums w tx contract a) txs ⟨[], [], [], []⟩
  have hcollectors := foldl_or (g := fun w : Watched A => w.collectorContracts.contains a)
    (fun w tx => contains_register fmt sums w tx a) txs ⟨[], [], [], []⟩
  have hbroadened := foldl_or (g := fun w : Watched A => opensToken w contract a)
    (fun w col => (opens_broadenCollector fmt isTest chainTokens w col contract a).2)
    (txs.foldl (register fmt sums) ⟨[], [], [], []⟩).collectorContracts
    (txs.foldl (register fmt sums) ⟨[], [], [], []⟩)
  have hany : ∀ cols : List A, (cols.any fun col => decide (a = col) &&
      chainTokens.any (isTokenAt fmt isTest contract)) =
        (cols.contains a && chainTokens.any (isTokenAt fmt isTest contract)) := by
    intro cols
    rw [Bool.eq_iff_iff]
    simp
  refine hbroadened.trans ?_
  rw [hregistered, hany, hcollectors]
  simp [opensToken]

end

end Evm

namespace Tron

open Evm

/-- Whether an invoice takes a slot of the coin, or of the tokens, at `addr`. -/
def waits (addr : String) (isCoin : Bool) (tx : Transaction) : Bool :=
  tx.recipientAddress ≠ "" && tx.recipientAddress = addr &&
    decide (tx.currency.type = .coin) = isCoin

theorem lookup_group (sums : Int → Option Int) (m : Groups) (tx : Transaction) (addr : String)
    (isCoin : Bool) :
    ((group sums m tx).lookup (addr, isCoin)).getD [] =
      (m.lookup (addr, isCoin)).getD [] ++
        if waits addr isCoin tx then [pendingInfo sums tx] else [] := by
  unfold group getRecipientAddress
  by_cases haddr : tx.recipientAddress = ""
  · simp [haddr, waits]
  · simp only [haddr, if_false]
    rw [lookup_upsert]
    by_cases hkey : (addr, isCoin) = (tx.recipientAddress, decide (tx.currency.type = .coin))
    · obtain ⟨rfl, rfl⟩ := Prod.mk.inj hkey
      simp [waits, haddr, pendingInfo]
    · have hnot : waits addr isCoin tx = false := by
        by_contra hwaits
        simp only [waits, Bool.and_eq_true, decide_eq_true_eq, Bool.not_eq_false] at hwaits
        exact hkey (Prod.ext hwaits.1.2.symm hwaits.2.symm)
      simp [hkey, hnot]

/-- The slots of a group: its invoices, in the order they were read. -/
theorem lookup_grouped (sums : Int → Option Int) (txs : List Transaction) (m : Groups)
    (addr : String) (isCoin : Bool) :
    ((txs.foldl (group sums) m).lookup (addr, isCoin)).getD [] =
      (m.lookup (addr, isCoin)).getD [] ++
        (txs.filter (waits addr isCoin)).map (pendingInfo sums) := by
  induction txs generalizing m with
  | nil => simp
  | cons tx txs ih =>
    rw [List.foldl_cons, ih, lookup_group, List.append_assoc]
    by_cases h : waits addr isCoin tx = true
    · simp [h]
    · simp [h]

end Tron

end CryptoLink
