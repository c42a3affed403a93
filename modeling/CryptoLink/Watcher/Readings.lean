import CryptoLink.Watcher.Btc
import CryptoLink.Watcher.Sightings

/-!
# What the other pollers hand on

TRON transfers come from the listing of an address, bitcoin transfers from its
history; each is handed on for an invoice of the poll that waits there.
-/

namespace CryptoLink

namespace Tron

variable {σ : Type}

/-- A successful transfer of the coin to the address. -/
structure NativeTransfer (addr : String) (rtx : AccountTransaction) (amount : Int) : Prop where
  success : rtx.success = true
  sentTo : rtx.recipient = addr
  type : rtx.type = "TransferContract"
  amount_eq : rtx.amount = amount
  positive : 0 < amount

/-- A transfer of one token to the address; an amount that is not a number
counts as 0. -/
structure TokenTransfer (isTest : Bool) (currency : CryptoCurrency) (addr : String)
    (rtx : AccountTransaction) (amount : Int) : Prop where
  sentTo : rtx.recipient = addr
  ofToken : equalFold rtx.tokenAddress (currency.chooseContractAddress isTest) = true
  amount_eq : (Money.setString rtx.tokenAmount).getD 0 = amount
  positive : 0 < amount

theorem nativeMatch_eq_some {addr : String} {pending : List PendingInfo} {rtx : AccountTransaction}
    {i : ℕ} {info : PendingInfo} {amount : Int}
    (h : nativeMatch addr pending rtx = some (i, info, amount)) :
    info ∈ pending ∧ NativeTransfer addr rtx amount ∧
      isDust amount info.effectiveExpected = false := by
  unfold nativeMatch at h
  split at h
  · cases h
  · rename_i hsent
    simp only [Bool.or_eq_true, Bool.not_eq_true', decide_eq_true_eq, not_or, not_not, not_le,
      Bool.not_eq_false] at hsent
    obtain ⟨⟨hsuccess, hto⟩, hpositive⟩ := hsent
    split at h
    · cases h
    · rename_i htype
      cases hbest : bestMatchByAmount pending rtx.amount with
      | none => simp [hbest] at h
      | some best =>
        obtain ⟨j, q, fits⟩ := best
        rw [hbest] at h
        cases fits with
        | false => cases h
        | true =>
          cases h
          exact ⟨bestMatchByAmount_mem hbest, ⟨hsuccess, hto, not_not.mp htype, rfl, hpositive⟩,
            not_dust_of_match hbest⟩

theorem tokenMatch_eq_some {isTest : Bool} {addr : String} {pending : List PendingInfo}
    {rtx : AccountTransaction} {i : ℕ} {info : PendingInfo} {amount : Int}
    (h : tokenMatch isTest addr pending rtx = some (i, info, amount)) :
    info ∈ pending ∧ TokenTransfer isTest info.tx.currency addr rtx amount ∧
      isDust amount info.effectiveExpected = false := by
  unfold tokenMatch at h
  split at h
  · cases h
  · rename_i hto
    cases hfind : pending.find? fun p =>
        equalFold rtx.tokenAddress (p.tx.currency.chooseContractAddress isTest) with
    | none => simp [hfind] at h
    | some first =>
      simp only [hfind] at h
      split at h
      · cases h
      · rename_i hpositive
        cases hbest : bestMatchByAmount ((tokenSlots isTest
            (first.tx.currency.chooseContractAddress isTest) pending).map Prod.fst)
              ((Money.setString rtx.tokenAmount).getD 0) with
        | none => simp [hbest] at h
        | some best =>
          obtain ⟨j, q, fits⟩ := best
          rw [hbest] at h
          cases fits with
          | false => cases h
          | true =>
            obtain ⟨slot, -, hslot⟩ := Option.map_eq_some_iff.mp h
            cases hslot
            have hmem := bestMatchByAmount_mem hbest
            rw [map_fst_tokenSlots] at hmem
            obtain ⟨hpending, hsame⟩ := List.mem_filter.mp hmem
            -- the first slot that fits and the best one are in one token
            have hfirst := List.find?_some hfind
            have htoken : equalFold rtx.tokenAddress
                (info.tx.currency.chooseContractAddress isTest) = true := by
              simp only [equalFold, decide_eq_true_eq] at hfirst hsame ⊢
              exact hfirst.trans hsame.symm
            exact ⟨hpending, ⟨not_not.mp hto, htoken, rfl, not_le.mp hpositive⟩,
              not_dust_of_match hbest⟩

/-- What a poll can hand on. -/
inductive Detects (client : Client) (isTest : Bool) (sums : Int → Option Int)
    (txs : List Transaction) : DetectedTransfer → Prop
  | native {addr : String} {recentTxs : List AccountTransaction} {rtx : AccountTransaction}
      {tx : Transaction} {amount : Int} (shown : client.accountTransactions addr = .ok recentTxs)
      (mem : rtx ∈ recentTxs) (transfer : NativeTransfer addr rtx amount) (pending : tx ∈ txs)
      (waits : waits addr true tx = true)
      (large : isDust amount (pendingInfo sums tx).effectiveExpected = false) :
      Detects client isTest sums txs
        (invoiceDetection isTest (pendingInfo sums tx) rtx.txID rtx.sender addr amount)
  | token {addr : String} {recentTxs : List AccountTransaction} {rtx : AccountTransaction}
      {tx : Transaction} {amount : Int} (shown : client.trc20Transactions addr = .ok recentTxs)
      (mem : rtx ∈ recentTxs) (transfer : TokenTransfer isTest tx.currency addr rtx amount)
      (pending : tx ∈ txs) (waits : waits addr false tx = true)
      (large : isDust amount (pendingInfo sums tx).effectiveExpected = false) :
      Detects client isTest sums txs
        (invoiceDetection isTest (pendingInfo sums tx) rtx.txID rtx.sender addr amount)

/-- Every slot of a group is one of an invoice of the poll that waits there. -/
def Grouped (sums : Int → Option Int) (txs : List Transaction) (m : Groups) : Prop :=
  ∀ addr isCoin pending, ((addr, isCoin), pending) ∈ m →
    ∀ info ∈ pending, Evm.Slot sums txs (waits addr isCoin) info

theorem Grouped.group {sums : Int → Option Int} {txs : List Transaction} {m : Groups}
    (h : Grouped sums txs m) {tx : Transaction} (htx : tx ∈ txs) :
    Grouped sums txs (group sums m tx) := by
  unfold Tron.group
  cases haddr : Evm.getRecipientAddress tx with
  | none => exact h
  | some addr =>
    obtain ⟨hne, rfl⟩ := Evm.getRecipientAddress_eq_some haddr
    have hslot : Evm.Slot sums txs (waits tx.recipientAddress
        (decide (tx.currency.type = .coin))) (pendingInfo sums tx) :=
      ⟨tx, htx, by simp [waits, hne], rfl⟩
    intro a isCoin pending hmem info hinfo
    rcases Evm.mem_upsert hmem with hold | hnew | ⟨x, hx, hp⟩
    · exact h a isCoin pending hold info hinfo
    · obtain ⟨hkey, rfl⟩ := Prod.mk.inj hnew
      obtain ⟨rfl, rfl⟩ := Prod.mk.inj hkey
      obtain rfl := List.mem_singleton.mp hinfo
      exact hslot
    · obtain ⟨hkey, rfl⟩ := Prod.mk.inj hp
      obtain ⟨rfl, rfl⟩ := Prod.mk.inj hkey
      rcases List.mem_append.mp hinfo with hold | hlast
      · exact h _ _ x hx info hold
      · obtain rfl := List.mem_singleton.mp hlast
        exact hslot

theorem grouped (sums : Int → Option Int) (txs : List Transaction) :
    Grouped sums txs (txs.foldl (group sums) []) := by
  have hfold : ∀ (ys : List Transaction) (m : Groups), ys ⊆ txs → Grouped sums txs m →
      Grouped sums txs (ys.foldl (group sums) m) := by
    intro ys
    induction ys with
    | nil => exact fun _ _ h => h
    | cons y ys ih =>
      intro m hys h
      exact ih _ (fun x hx => hys (List.mem_cons_of_mem _ hx)) (h.group (hys List.mem_cons_self))
  refine hfold txs [] (fun _ h => h) ?_
  intro addr isCoin pending hmem
  cases hmem

variable {onDetected : OnDetected σ} {J : σ → Prop}

theorem keeps_pollTransfers {isTest : Bool} {addr : String}
    {found : List PendingInfo → AccountTransaction → Option (ℕ × PendingInfo × Int)}
    {txs : List AccountTransaction} {P : PendingInfo → Prop} {x : Scan σ}
    (hstep : ∀ rtx ∈ txs, ∀ pending i info amount, (∀ q ∈ pending, P q) →
      found pending rtx = some (i, info, amount) → ∀ st, J st →
        J (onDetected (invoiceDetection isTest info rtx.txID rtx.sender addr amount) st).2)
    (hpending : ∀ info ∈ x.pending, P info) (hx : J x.state) :
    J (pollTransfers isTest addr found onDetected txs x).state := by
  induction txs generalizing x with
  | nil => exact hx
  | cons rtx rest ih =>
    have hrest := fun r hr => hstep r (List.mem_cons_of_mem _ hr)
    simp only [pollTransfers]
    split
    · exact hx
    · cases hfound : found x.pending rtx with
      | none => exact ih hrest hpending hx
      | some best =>
        obtain ⟨i, info, amount⟩ := best
        refine ih hrest (fun q hq => hpending q (Scan.mem_of_mem_handOn hq)) ?_
        rw [Scan.state_handOn]
        exact hstep rtx List.mem_cons_self _ i info amount hpending hfound _ hx

/-- Whatever every detection of the listings keeps, the poll keeps. -/
theorem keeps_pollTRONTransactions {isTest : Bool} {client : Option Client}
    {sums : Int → Option Int} {txs : List Transaction} {st : σ}
    (hJ : ∀ node, client = some node → ∀ d st, Detects node isTest sums txs d → J st →
      J (onDetected d st).2) (hst : J st) :
    J (pollTRONTransactions isTest client onDetected sums txs st).state := by
  cases client with
  | none => exact hst
  | some node =>
    have hnode := hJ node rfl
    have hgroup : ∀ g ∈ txs.foldl (group sums) [], ∀ x : Scan σ, J x.state →
        J (pollGroup isTest node onDetected x g).state := by
      rintro ⟨⟨addr, isCoin⟩, pending⟩ hg x hx
      have hslots := grouped sums txs addr isCoin pending hg
      cases isCoin with
      | true =>
        simp only [pollGroup, pollTRONNativeForAddress]
        cases hlist : node.accountTransactions addr with
        | error e => exact hx
        | ok recentTxs =>
          refine keeps_pollTransfers ?_ hslots hx
          intro rtx hrtx slots i info amount hP hfound st hst
          obtain ⟨hinfo, htransfer, hlarge⟩ := nativeMatch_eq_some hfound
          obtain ⟨tx, htx, hwaits, rfl⟩ := hP info hinfo
          exact hnode _ st (.native hlist hrtx htransfer htx hwaits hlarge) hst
      | false =>
        simp only [pollGroup, pollTRONTokenForAddress]
        cases hlist : node.trc20Transactions addr with
        | error e => exact hx
        | ok recentTxs =>
          refine keeps_pollTransfers ?_ hslots hx
          intro rtx hrtx slots i info amount hP hfound st hst
          obtain ⟨hinfo, htransfer, hlarge⟩ := tokenMatch_eq_some hfound
          obtain ⟨tx, htx, hwaits, rfl⟩ := hP info hinfo
          exact hnode _ st (.token hlist hrtx htransfer htx hwaits hlarge) hst
    unfold pollTRONTransactions
    have hfold : ∀ (gs : Groups) (x : Scan σ), (∀ g ∈ gs, g ∈ txs.foldl (group sums) []) →
        J x.state → J (gs.foldl (pollGroup isTest node onDetected) x).state := by
      intro gs
      induction gs with
      | nil => exact fun _ _ hx => hx
      | cons g gs ih =>
        intro x hgs hx
        exact ih _ (fun g' hg' => hgs g' (List.mem_cons_of_mem _ hg'))
          (hgroup g (hgs g List.mem_cons_self) x hx)
    exact hfold _ _ (fun _ hg => hg) hst

end Tron

namespace Btc

variable {σ : Type}

/-- What a poll can hand on: what an address's balance grew by since the last
one, under the hash found in its history. -/
inductive Detects (provider : Provider) (isTest : Bool) (lastBTCBalance : String → Option Int)
    (txs : List Transaction) : DetectedTransfer → Prop
  | grown {tx : Transaction} {current : Int} (pending : tx ∈ txs)
      (address : tx.recipientAddress ≠ "")
      (shown : provider.addressInfo tx.recipientAddress = .ok current)
      (grew : (lastBTCBalance (cacheKey tx.recipientAddress isTest)).getD 0 < current)
      (found : (provider.transfer tx.recipientAddress).1 ≠ "") :
      Detects provider isTest lastBTCBalance txs (grownBy isTest tx tx.recipientAddress
        (provider.transfer tx.recipientAddress).1 (provider.transfer tx.recipientAddress).2
        (current - (lastBTCBalance (cacheKey tx.recipientAddress isTest)).getD 0))

/-- Every balance is the one of the start, or the one the node shows. -/
def Tracked (provider : Provider) (isTest : Bool) (lastBTCBalance : String → Option Int)
    (x : BalanceScan σ) : Prop :=
  ∀ addr current, provider.addressInfo addr = .ok current →
    x.lastBalance (cacheKey addr isTest) = (lastBTCBalance (cacheKey addr isTest)).getD 0 ∨
      x.lastBalance (cacheKey addr isTest) = current

section

variable {isTest : Bool} {provider : Provider} {lastBTCBalance : String → Option Int}
  {x : BalanceScan σ}

theorem Tracked.start (st : σ) :
    Tracked provider isTest lastBTCBalance (⟨lastBTCBalance, 0, [], st⟩ : BalanceScan σ) :=
  fun _ _ _ => .inl rfl

theorem Tracked.of_lastBalance {y : BalanceScan σ} (h : Tracked provider isTest lastBTCBalance x)
    (hy : ∀ key, y.lastBalance key = x.lastBalance key) :
    Tracked provider isTest lastBTCBalance y := by
  intro addr current hshown
  rw [hy]
  exact h addr current hshown

theorem Tracked.store (h : Tracked provider isTest lastBTCBalance x) {addr : String}
    {balance : Int}
    (hbalance : ∀ current, provider.addressInfo addr = .ok current →
      balance = (lastBTCBalance (cacheKey addr isTest)).getD 0 ∨ balance = current) :
    Tracked provider isTest lastBTCBalance (x.store (cacheKey addr isTest) balance) := by
  intro other current hshown
  by_cases hkey : cacheKey other isTest = cacheKey addr isTest
  · obtain rfl := cacheKey_inj hkey
    rw [BalanceScan.lastBalance_store]
    exact hbalance current hshown
  · have hsame : (x.store (cacheKey addr isTest) balance).lastBalance (cacheKey other isTest) =
        x.lastBalance (cacheKey other isTest) := by
      simp [BalanceScan.lastBalance, BalanceScan.store, hkey]
    rw [hsame]
    exact h other current hshown

end

/-- Whatever every detection of the histories keeps, the poll keeps. -/
theorem keeps_pollBTCTransactions {isTest : Bool} {provider : Provider} {onDetected : OnDetected σ}
    {txs : List Transaction} {lastBTCBalance : String → Option Int} {J : σ → Prop} {st : σ}
    (hJ : ∀ d st, Detects provider isTest lastBTCBalance txs d → J st → J (onDetected d st).2)
    (hst : J st) :
    J (pollBTCTransactions isTest provider onDetected txs lastBTCBalance st).state := by
  have hone : ∀ tx ∈ txs, ∀ x : BalanceScan σ, Tracked provider isTest lastBTCBalance x →
      J x.state → Tracked provider isTest lastBTCBalance
        (pollAddress isTest provider onDetected x tx) ∧
          J (pollAddress isTest provider onDetected x tx).state := by
    intro tx htx x htracked hx
    by_cases haddr : tx.recipientAddress = ""
    · simp only [pollAddress, Evm.getRecipientAddress, if_pos haddr]
      exact ⟨htracked, hx⟩
    · cases hinfo : provider.addressInfo tx.recipientAddress with
      | error e =>
        rw [pollAddress_unreachable haddr hinfo]
        exact ⟨htracked.of_lastBalance fun _ => rfl, hx⟩
      | ok current =>
        have hstored : Tracked provider isTest lastBTCBalance
            (x.store (cacheKey tx.recipientAddress isTest) current) :=
          htracked.store fun other hother => .inr (Except.ok.inj (hinfo.symm.trans hother))
        rw [pollAddress_answered haddr hinfo]
        split
        · exact ⟨hstored, hx⟩
        · rename_i hgrew
          -- the balance before is that of the start: the node's own would not be growth
          have hlast : x.lastBalance (cacheKey tx.recipientAddress isTest) =
              (lastBTCBalance (cacheKey tx.recipientAddress isTest)).getD 0 := by
            rcases htracked tx.recipientAddress current hinfo with hstart | hnow
            · exact hstart
            · exact absurd hnow.ge hgrew
          rw [hlast] at hgrew ⊢
          split
          · exact ⟨hstored.store fun _ _ => .inl rfl, hx⟩
          · rename_i hfound
            refine ⟨hstored.of_lastBalance fun key =>
              BalanceScan.lastBalance_handOn _ _ _ _ key, ?_⟩
            rw [BalanceScan.state_handOn]
            exact hJ _ _ (.grown htx haddr hinfo (not_le.mp hgrew) hfound) hx
  have hfold : ∀ (ys : List Transaction) (x : BalanceScan σ), ys ⊆ txs →
      Tracked provider isTest lastBTCBalance x → J x.state →
      J (ys.foldl (pollAddress isTest provider onDetected) x).state := by
    intro ys
    induction ys with
    | nil => exact fun _ _ _ hx => hx
    | cons y ys ih =>
      intro x hys htracked hx
      obtain ⟨hnext, hkept⟩ := hone y (hys List.mem_cons_self) x htracked hx
      exact ih _ (fun t ht => hys (List.mem_cons_of_mem _ ht)) hnext hkept
  exact hfold txs _ (fun _ h => h) (Tracked.start st) hst

/-- A poll reads no balance of the other network, so it detects the same. -/
theorem Detects.congr {provider : Provider} {isTest : Bool}
    {lastBTCBalance lastBTCBalance' : String → Option Int} {txs : List Transaction}
    {d : DetectedTransfer}
    (hsame : ∀ addr, lastBTCBalance' (cacheKey addr isTest) = lastBTCBalance (cacheKey addr isTest))
    (h : Detects provider isTest lastBTCBalance' txs d) :
    Detects provider isTest lastBTCBalance txs d := by
  cases h with
  | grown pending address shown grew found =>
    rw [hsame] at grew ⊢
    exact .grown pending address shown grew found

theorem lastBTCBalance_pollBTCTransactions {isTest : Bool} {provider : Provider}
    {onDetected : OnDetected σ} {txs : List Transaction} {lastBTCBalance : String → Option Int}
    {st : σ} {key : String} (hkey : ∀ addr, key ≠ cacheKey addr isTest) :
    (pollBTCTransactions isTest provider onDetected txs lastBTCBalance st).lastBTCBalance key =
      lastBTCBalance key := by
  have hstore : ∀ (x : BalanceScan σ) (addr : String) (balance : Int),
      (x.store (cacheKey addr isTest) balance).lastBTCBalance key = x.lastBTCBalance key :=
    fun x addr balance => if_neg (hkey addr)
  have hone : ∀ (x : BalanceScan σ) (tx : Transaction),
      (pollAddress isTest provider onDetected x tx).lastBTCBalance key = x.lastBTCBalance key := by
    intro x tx
    by_cases haddr : tx.recipientAddress = ""
    · simp only [pollAddress, Evm.getRecipientAddress, if_pos haddr]
    · cases hinfo : provider.addressInfo tx.recipientAddress with
      | error e =>
        rw [pollAddress_unreachable haddr hinfo]
        rfl
      | ok current =>
        rw [pollAddress_answered haddr hinfo]
        split
        · exact hstore _ _ _
        · split
          · exact (hstore _ _ _).trans (hstore _ _ _)
          · rw [BalanceScan.handOn]
            split
            · exact hstore _ _ _
            · exact hstore _ _ _
  have hfold : ∀ (ys : List Transaction) (x : BalanceScan σ),
      (ys.foldl (pollAddress isTest provider onDetected) x).lastBTCBalance key =
        x.lastBTCBalance key := by
    intro ys
    induction ys with
    | nil => exact fun _ => rfl
    | cons y ys ih => exact fun x => (ih _).trans (hone x y)
  exact hfold txs _

theorem cacheKey_ne {addr other : String} {isTest isTest' : Bool} (h : isTest' ≠ isTest) :
    cacheKey other isTest' ≠ cacheKey addr isTest := by
  intro heq
  have hlast := congrArg (fun key => key.toList.getLast?) heq
  cases isTest with
  | true =>
    obtain rfl : isTest' = false := Bool.eq_false_iff.mpr h
    simp [cacheKey, String.toList_append] at hlast
  | false =>
    obtain rfl : isTest' = true := Bool.eq_true_of_not_eq_false h
    simp [cacheKey, String.toList_append] at hlast

end Btc

end CryptoLink
