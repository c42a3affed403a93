import CryptoLink.Watcher.Polling

/-!
# What a poll hands on

Every detection of an EVM poll comes from a log or a block that the node
showed in the scanned range, and names an invoice of the poll or none. What
all such detections keep, a poll keeps.
-/

namespace CryptoLink

namespace Evm

variable {A σ : Type} [DecidableEq A]

section

variable {β : Type}

theorem mem_upsert {empty : β} {f : β → β} {a : A} {m : List (A × β)} {p : A × β}
    (h : p ∈ upsert empty f a m) : p ∈ m ∨ p = (a, f empty) ∨ ∃ x, (a, x) ∈ m ∧ p = (a, f x) := by
  induction m with
  | nil => exact .inr (.inl (List.mem_singleton.mp h))
  | cons q rest ih =>
    obtain ⟨b, x⟩ := q
    by_cases hb : b = a
    · subst hb
      simp only [upsert, if_true, List.mem_cons] at h
      rcases h with rfl | hrest
      · exact .inr (.inr ⟨x, List.mem_cons_self, rfl⟩)
      · exact .inl (List.mem_cons_of_mem _ hrest)
    · simp only [upsert, if_neg hb, List.mem_cons] at h
      rcases h with rfl | hrest
      · exact .inl List.mem_cons_self
      · rcases ih hrest with hold | hnew | ⟨y, hy, hp⟩
        · exact .inl (List.mem_cons_of_mem _ hold)
        · exact .inr (.inl hnew)
        · exact .inr (.inr ⟨y, List.mem_cons_of_mem _ hy, hp⟩)

theorem mem_delete {a : A} {m : List (A × β)} {p : A × β} (h : p ∈ delete a m) : p ∈ m :=
  (List.mem_filter.mp h).1

theorem mem_assign {a : A} {y : β} {m : List (A × β)} {p : A × β} (h : p ∈ assign a y m) :
    p ∈ m ∨ p = (a, y) := by
  obtain ⟨q, hq, rfl⟩ := List.mem_map.mp h
  by_cases hk : q.1 = a
  · simp [hk]
  · simp [hk, hq]

theorem mem_of_lookup {a : A} {m : List (A × β)} {x : β} (h : m.lookup a = some x) :
    (a, x) ∈ m := by
  obtain ⟨l₁, l₂, hm, -⟩ := List.lookup_eq_some_iff.mp h
  simp [hm]

theorem lookup_of_mem {a : A} {m : List (A × β)} {x : β} (hkeys : (m.map Prod.fst).Nodup)
    (h : (a, x) ∈ m) : m.lookup a = some x := by
  obtain ⟨l₁, l₂, rfl⟩ := List.mem_iff_append.mp h
  refine List.lookup_eq_some_iff.mpr ⟨l₁, l₂, rfl, fun p hp => ?_⟩
  rw [List.map_append, List.nodup_append] at hkeys
  have hne := hkeys.2.2 p.1 (List.mem_map_of_mem hp) a (by simp)
  simpa using hne.symm

theorem nodup_upsert (empty : β) (f : β → β) (a : A) {m : List (A × β)}
    (h : (m.map Prod.fst).Nodup) : ((upsert empty f a m).map Prod.fst).Nodup := by
  induction m with
  | nil => exact List.nodup_singleton a
  | cons p m ih =>
    obtain ⟨b, x⟩ := p
    obtain ⟨hnot, hrest⟩ := List.nodup_cons.mp h
    by_cases hb : b = a
    · rw [upsert, if_pos hb]
      exact h
    · rw [upsert, if_neg hb]
      refine List.nodup_cons.mpr ⟨?_, ih hrest⟩
      intro hin
      obtain ⟨q, hq, hqb⟩ := List.mem_map.mp hin
      rcases mem_upsert hq with hold | hnew | ⟨y, -, hp⟩
      · exact hnot (List.mem_map.mpr ⟨q, hold, hqb⟩)
      · exact hb (hqb.symm.trans (congrArg Prod.fst hnew))
      · exact hb (hqb.symm.trans (congrArg Prod.fst hp))

end

/-- With each address, invoices in `P`. -/
def SlotsIn (P : A → PendingInfo → Prop) (m : Slots A) : Prop :=
  ∀ a pending, (a, pending) ∈ m → ∀ info ∈ pending, P a info

section

variable {P : A → PendingInfo → Prop} {m : Slots A}

theorem SlotsIn.addSlot {a : A} {info : PendingInfo} (h : SlotsIn P m)
    (hinfo : P a info) : SlotsIn P (addSlot a info m) := by
  intro b pending hb i hi
  rcases mem_upsert hb with hold | hnew | ⟨x, hx, hp⟩
  · exact h b pending hold i hi
  · obtain ⟨rfl, rfl⟩ := Prod.mk.inj hnew
    obtain rfl := List.mem_singleton.mp hi
    exact hinfo
  · obtain ⟨rfl, rfl⟩ := Prod.mk.inj hp
    rcases List.mem_append.mp hi with hold | hlast
    · exact h _ x hx i hold
    · obtain rfl := List.mem_singleton.mp hlast
      exact hinfo

theorem SlotsIn.upsert_id {a : A} (h : SlotsIn P m) : SlotsIn P (upsert [] id a m) := by
  intro b pending hb i hi
  rcases mem_upsert hb with hold | hnew | ⟨x, hx, hp⟩
  · exact h b pending hold i hi
  · obtain ⟨rfl, rfl⟩ := Prod.mk.inj hnew
    cases hi
  · obtain ⟨rfl, rfl⟩ := Prod.mk.inj hp
    exact h _ _ hx i hi

theorem SlotsIn.putBack {x : LogScan A σ} {a : A} {y : Scan σ} (h : SlotsIn P x.slots)
    (hy : ∀ info ∈ y.pending, P a info) : SlotsIn P (x.putBack a y).slots := by
  intro b pending hb i hi
  simp only [LogScan.putBack] at hb
  split at hb
  · exact h b pending (mem_delete hb) i hi
  · rcases mem_assign hb with hold | hnew
    · exact h b pending hold i hi
    · obtain ⟨rfl, rfl⟩ := Prod.mk.inj hnew
      exact hy i hi

end

/-- Taking a slot leaves no address without slots. -/
theorem lookup_putBack_nil {x : LogScan A σ} {a b : A} {y : Scan σ}
    (h : (x.putBack a y).slots.lookup b = some []) : x.slots.lookup b = some [] := by
  have hdelete : ∀ m : Slots A, (delete a m).lookup b = some [] → m.lookup b = some [] := by
    intro m hm
    induction m with
    | nil => cases hm
    | cons p m ih =>
      obtain ⟨k, v⟩ := p
      by_cases hk : k = a
      · subst hk
        have hrest : (delete k m).lookup b = some [] := by simpa [delete] using hm
        have hne : b ≠ k := of_decide_eq_true (List.mem_filter.mp (mem_of_lookup hrest)).2
        rw [List.lookup_cons, beq_eq_false_iff_ne.mpr hne]
        exact ih hrest
      · have hkept : delete a ((k, v) :: m) = (k, v) :: delete a m := by simp [delete, hk]
        rw [hkept, List.lookup_cons] at hm
        rw [List.lookup_cons]
        split at hm
        · exact hm
        · exact ih hm
  have hassign : y.pending ≠ [] → ∀ m : Slots A, (assign a y.pending m).lookup b = some [] →
      m.lookup b = some [] := by
    intro hne m hm
    induction m with
    | nil => cases hm
    | cons p m ih =>
      obtain ⟨k, v⟩ := p
      by_cases hk : k = a
      · subst hk
        have hkept : assign k y.pending ((k, v) :: m) = (k, y.pending) :: assign k y.pending m := by
          simp [assign]
        rw [hkept, List.lookup_cons] at hm
        rw [List.lookup_cons]
        split at hm
        · exact absurd (Option.some.inj hm) hne
        · exact ih hm
      · have hkept : assign a y.pending ((k, v) :: m) = (k, v) :: assign a y.pending m := by
          simp [assign, hk]
        rw [hkept, List.lookup_cons] at hm
        rw [List.lookup_cons]
        split at hm
        · exact hm
        · exact ih hm
  simp only [LogScan.putBack] at h
  split at h
  · exact hdelete _ h
  · rename_i hpending
    exact hassign (fun hnil => hpending (by rw [hnil]; rfl)) _ h

theorem getRecipientAddress_eq_some {tx : Transaction} {addr : String}
    (h : getRecipientAddress tx = some addr) :
    tx.recipientAddress ≠ "" ∧ tx.recipientAddress = addr := by
  unfold getRecipientAddress at h
  split at h
  · cases h
  · exact ⟨‹_›, Option.some.inj h⟩

/-- Whether an invoice takes a slot of the coin at the hot wallet `a`. -/
def waitsWallet (fmt : AddressFormat A) (a : A) (tx : Transaction) : Bool :=
  tx.recipientAddress ≠ "" && fmt.hexToAddress tx.recipientAddress = a &&
    tx.currency.type = .coin && tx.recipientWalletID.isSome

/-- The slot of an invoice of the poll that waits there. -/
def Slot (sums : Int → Option Int) (txs : List Transaction) (waits : Transaction → Bool)
    (info : PendingInfo) : Prop :=
  ∃ tx ∈ txs, waits tx = true ∧ info = pendingInfo sums tx

/-- Some invoice of the poll has its collector at `a`, and none waits there. -/
def Unawaited (fmt : AddressFormat A) (txs : List Transaction) (waits : A → Transaction → Bool)
    (a : A) : Prop :=
  (∃ tx ∈ txs, collectsAt fmt a tx = true) ∧ ∀ tx ∈ txs, waits a tx = false

section

variable (fmt : AddressFormat A) (sums : Int → Option Int) (txs : List Transaction)

/-- Every slot is one of an invoice of the poll that waits there. -/
structure Sound (w : Watched A) : Prop where
  native : SlotsIn (fun a => Slot sums txs (waitsNative fmt a)) w.nativeAddressesContract
  wallet : SlotsIn (fun a => Slot sums txs (waitsWallet fmt a)) w.nativeAddressesEOA
  token : ∀ contract m, (contract, m) ∈ w.tokenAddresses →
    SlotsIn (fun a => Slot sums txs (waitsToken fmt contract a)) m
  keys : (w.tokenAddresses.map Prod.fst).Nodup

variable {fmt sums txs} {w : Watched A}

theorem Sound.collector (h : Sound fmt sums txs w) (b : Bool) (cols : List A) :
    Sound fmt sums txs (if b = true then { w with collectorContracts := cols } else w) := by
  cases b with
  | false => exact h
  | true => exact ⟨h.native, h.wallet, h.token, h.keys⟩

theorem Sound.register (h : Sound fmt sums txs w) {tx : Transaction} (htx : tx ∈ txs) :
    Sound fmt sums txs (register fmt sums w tx) := by
  unfold Evm.register
  cases haddr : getRecipientAddress tx with
  | none => exact h
  | some addr =>
    obtain ⟨hne, rfl⟩ := getRecipientAddress_eq_some haddr
    have hcol := h.collector (tx.recipientWalletID.isNone &&
      !w.collectorContracts.contains (fmt.hexToAddress tx.recipientAddress))
        (w.collectorContracts ++ [fmt.hexToAddress tx.recipientAddress])
    obtain ⟨hnative, hwallet, htoken, hkeys⟩ := hcol
    simp only
    cases htype : tx.currency.type with
    | coin =>
      by_cases hid : tx.recipientWalletID.isNone = true
      · simp only [hid, if_true]
        rw [hid] at hnative hwallet htoken hkeys
        refine ⟨hnative.addSlot ⟨tx, htx, ?_, rfl⟩, hwallet, htoken, hkeys⟩
        simp [waitsNative, hne, htype, hid]
      · have hsome : tx.recipientWalletID.isSome = true := by
          cases hwalletID : tx.recipientWalletID with
          | none => simp [hwalletID] at hid
          | some _ => rfl
        rw [if_neg (by simpa using hid)]
        refine ⟨hnative, hwallet.addSlot ⟨tx, htx, ?_, rfl⟩, htoken, hkeys⟩
        simp [waitsWallet, hne, htype, hsome]
    | token =>
      simp only
      split
      · rename_i hcontract
        refine ⟨hnative, hwallet, ?_, nodup_upsert _ _ _ hkeys⟩
        intro contract m hm
        have hslot : Slot sums txs (waitsToken fmt (fmt.hexToAddress
            (tx.currency.chooseContractAddress tx.isTest)) (fmt.hexToAddress tx.recipientAddress))
              (pendingInfo sums tx) := by
          refine ⟨tx, htx, ?_, rfl⟩
          simp [waitsToken, hne, htype, hcontract]
        rcases mem_upsert hm with hold | hnew | ⟨x, hx, hp⟩
        · exact htoken contract m hold
        · obtain ⟨rfl, rfl⟩ := Prod.mk.inj hnew
          have hempty : SlotsIn (fun a => Slot sums txs (waitsToken fmt
              (fmt.hexToAddress (tx.currency.chooseContractAddress tx.isTest)) a))
                ([] : Slots A) := by
            intro a pending ha
            cases ha
          exact hempty.addSlot hslot
        · obtain ⟨rfl, rfl⟩ := Prod.mk.inj hp
          exact (htoken _ x hx).addSlot hslot
      · exact ⟨hnative, hwallet, htoken, hkeys⟩

theorem Sound.registered (h : Sound fmt sums txs w) {ys : List Transaction} (hys : ys ⊆ txs) :
    Sound fmt sums txs (ys.foldl (Evm.register fmt sums) w) := by
  induction ys generalizing w with
  | nil => exact h
  | cons y ys ih =>
    have hfirst := h.register (hys List.mem_cons_self)
    exact ih hfirst fun x hx => hys (List.mem_cons_of_mem _ hx)

theorem Sound.broadenToken (h : Sound fmt sums txs w) (isTest : Bool) (col : A)
    (cur : CryptoCurrency) : Sound fmt sums txs (broadenToken fmt isTest col w cur) := by
  unfold Evm.broadenToken
  split
  · exact h
  · refine ⟨h.native, h.wallet, ?_, nodup_upsert _ _ _ h.keys⟩
    intro contract m hm
    rcases mem_upsert hm with hold | hnew | ⟨x, hx, hp⟩
    · exact h.token contract m hold
    · obtain ⟨rfl, rfl⟩ := Prod.mk.inj hnew
      have hempty : SlotsIn (fun a => Slot sums txs (waitsToken fmt
          (fmt.hexToAddress (cur.chooseContractAddress isTest)) a)) ([] : Slots A) := by
        intro a pending ha
        cases ha
      exact hempty.upsert_id
    · obtain ⟨rfl, rfl⟩ := Prod.mk.inj hp
      exact (h.token _ x hx).upsert_id

theorem Sound.broadenTokens (h : Sound fmt sums txs w) (isTest : Bool) (col : A)
    (chainTokens : List CryptoCurrency) :
    Sound fmt sums txs (chainTokens.foldl (Evm.broadenToken fmt isTest col) w) := by
  induction chainTokens generalizing w with
  | nil => exact h
  | cons cur rest ih => exact ih (h.broadenToken isTest col cur)

theorem Sound.broadenCollectors (h : Sound fmt sums txs w) (isTest : Bool)
    (chainTokens : List CryptoCurrency) (cols : List A) :
    Sound fmt sums txs (cols.foldl (broadenCollector fmt isTest chainTokens) w) := by
  induction cols generalizing w with
  | nil => exact h
  | cons col rest ih =>
    have hslot : Sound fmt sums txs
        { w with nativeAddressesContract := upsert [] id col w.nativeAddressesContract } :=
      ⟨h.native.upsert_id, h.wallet, h.token, h.keys⟩
    exact ih (hslot.broadenTokens isTest col chainTokens)

theorem sound_watch (isTest : Bool) (chainTokens : List CryptoCurrency) :
    Sound fmt sums txs (watch fmt isTest sums chainTokens txs) := by
  have hempty : ∀ P : A → PendingInfo → Prop, SlotsIn P ([] : Slots A) := by
    intro P a pending ha
    cases ha
  have hnone : Sound fmt sums txs (⟨[], [], [], []⟩ : Watched A) := by
    refine ⟨hempty _, hempty _, ?_, List.nodup_nil⟩
    intro contract m hm
    cases hm
  exact (hnone.registered fun _ h => h).broadenCollectors isTest chainTokens _

/-- An address looked at without slots is a collector of the poll where no
invoice waits for the currency. -/
theorem unawaited_native {isTest : Bool} {chainTokens : List CryptoCurrency} {a : A}
    (h : (watch fmt isTest sums chainTokens txs).nativeAddressesContract.lookup a = some []) :
    Unawaited fmt txs (waitsNative fmt) a := by
  have hopen : opensNative (watch fmt isTest sums chainTokens txs) a = true := by
    simp [opensNative, h]
  have hnone : nativeSlots (watch fmt isTest sums chainTokens txs) a = [] := by
    simp [nativeSlots, h]
  rw [opensNative_watch] at hopen
  rw [nativeSlots_watch] at hnone
  refine ⟨List.any_eq_true.mp hopen, fun tx htx => ?_⟩
  have hno := List.filter_eq_nil_iff.mp (List.map_eq_nil_iff.mp hnone) tx htx
  exact Bool.eq_false_iff.mpr hno

theorem unawaited_token {isTest : Bool} {chainTokens : List CryptoCurrency} {contract a : A}
    {m : Slots A} (hm : (contract, m) ∈ (watch fmt isTest sums chainTokens txs).tokenAddresses)
    (h : m.lookup a = some []) : Unawaited fmt txs (waitsToken fmt contract) a := by
  have hsound : Sound fmt sums txs (watch fmt isTest sums chainTokens txs) :=
    sound_watch isTest chainTokens
  have hlookup := lookup_of_mem hsound.keys hm
  have hopen : opensToken (watch fmt isTest sums chainTokens txs) contract a = true := by
    simp [opensToken, hlookup, h]
  have hnone : tokenSlots (watch fmt isTest sums chainTokens txs) contract a = [] := by
    simp [tokenSlots, hlookup, h]
  rw [opensToken_watch] at hopen
  rw [tokenSlots_watch] at hnone
  have hwaits : ∀ tx ∈ txs, waitsToken fmt contract a tx = false := fun tx htx =>
    Bool.eq_false_iff.mpr (List.filter_eq_nil_iff.mp (List.map_eq_nil_iff.mp hnone) tx htx)
  rcases Bool.or_eq_true_iff.mp hopen with hany | hcollects
  · obtain ⟨tx, htx, hwait⟩ := List.any_eq_true.mp hany
    rw [hwaits tx htx] at hwait
    cases hwait
  · exact ⟨List.any_eq_true.mp (Bool.and_eq_true_iff.mp hcollects).1, hwaits⟩

end

namespace Client

variable (client : Client A) (fromBlock toBlock : Int)

/-- A `Received` event of the scanned range. -/
def Received (entry : LogEntry A) : Prop :=
  ∃ f t addresses logs, fromBlock ≤ f ∧ t ≤ toBlock ∧
    client.filterLogs (.received f t addresses) = some logs ∧ entry ∈ logs

/-- A `Transfer` event of one token in the scanned range. -/
def Transferred (contract : A) (entry : LogEntry A) : Prop :=
  ∃ f t recipients logs, fromBlock ≤ f ∧ t ≤ toBlock ∧
    client.filterLogs (.transfers f t contract recipients) = some logs ∧ entry ∈ logs

end Client

namespace Scanned

variable (c : Scanned A σ)

/-- The detection of a transfer no invoice waits for. -/
def unmatchedDetection (isNative : Bool) (tokenContract : String) (sender recipient : A)
    (entry : LogEntry A) : DetectedTransfer where
  txHash := entry.txHash
  senderAddress := c.fmt.hex sender
  recipientAddress := c.fmt.hex recipient
  target := .unmatched c.bc c.isTest isNative tokenContract (toString entry.data)

/-- What a poll over a range of blocks can hand on. -/
inductive Detects (client : Client A) (sums : Int → Option Int) (txs : List Transaction)
    (fromBlock toBlock : Int) : DetectedTransfer → Prop
  | native {entry : LogEntry A} {sender : A} {rest : List A} {tx : Transaction}
      (shown : client.Received fromBlock toBlock entry) (topics : entry.topics = sender :: rest)
      (nonzero : entry.data ≠ 0) (mem : tx ∈ txs)
        (waits : waitsNative c.fmt entry.address tx = true)
      (large : isDust entry.data (pendingInfo sums tx).effectiveExpected = false) :
      Detects client sums txs fromBlock toBlock (invoiceDetection c.isTest (pendingInfo sums tx)
        entry.txHash (c.fmt.hex sender) (c.fmt.hex entry.address) entry.data)
  | nativeUnmatched {entry : LogEntry A} {sender : A} {rest : List A}
      (shown : client.Received fromBlock toBlock entry) (topics : entry.topics = sender :: rest)
      (nonzero : entry.data ≠ 0)
      (unawaited : Unawaited c.fmt txs (waitsNative c.fmt) entry.address) :
      Detects client sums txs fromBlock toBlock
        (c.unmatchedDetection true "" sender entry.address entry)
  | token {contract : A} {entry : LogEntry A} {sender recipient : A} {rest : List A}
      {tx : Transaction} (shown : client.Transferred fromBlock toBlock contract entry)
      (topics : entry.topics = sender :: recipient :: rest) (mem : tx ∈ txs)
      (waits : waitsToken c.fmt contract recipient tx = true)
      (large : isDust entry.data (pendingInfo sums tx).effectiveExpected = false) :
      Detects client sums txs fromBlock toBlock (invoiceDetection c.isTest (pendingInfo sums tx)
        entry.txHash (c.fmt.hex sender) (c.fmt.hex recipient) entry.data)
  | tokenUnmatched {contract : A} {entry : LogEntry A} {sender recipient : A} {rest : List A}
      (shown : client.Transferred fromBlock toBlock contract entry)
      (topics : entry.topics = sender :: recipient :: rest)
      (nonzero : entry.data ≠ 0)
      (unawaited : Unawaited c.fmt txs (waitsToken c.fmt contract) recipient) :
      Detects client sums txs fromBlock toBlock
        (c.unmatchedDetection false (c.fmt.hex contract) sender recipient entry)
  | value {bn : Int} {blockTxs : List (BlockTx A)} {btx : BlockTx A} {sender recipient : A}
      {tx : Transaction} (bounds : fromBlock ≤ bn ∧ bn ≤ toBlock)
      (shown : client.blockByNumber bn = some blockTxs) (listed : btx ∈ blockTxs)
      (sentBy : btx.sender = some sender) (sentTo : btx.recipient = some recipient)
      (nonzero : btx.value ≠ 0) (mem : tx ∈ txs) (waits : waitsWallet c.fmt recipient tx = true)
      (large : isDust btx.value (pendingInfo sums tx).effectiveExpected = false) :
      Detects client sums txs fromBlock toBlock (invoiceDetection c.isTest (pendingInfo sums tx)
        btx.hash (c.fmt.hex sender) (c.fmt.hex recipient) btx.value)

section

variable {c} {E : A → Prop} {P : A → PendingInfo → Prop} {J : σ → Prop} {x : LogScan A σ}

/-- The slots of a scan, which addresses are without, and the state behind its
callback. -/
structure Keeps (E : A → Prop) (P : A → PendingInfo → Prop) (J : σ → Prop) (x : LogScan A σ) :
    Prop where
  slots : SlotsIn P x.slots
  empty : ∀ a, x.slots.lookup a = some [] → E a
  state : J x.state

theorem Keeps.putBack (h : Keeps E P J x) {a : A} {y : Scan σ} (hy : ∀ info ∈ y.pending, P a info)
    (hstate : J y.state) : Keeps E P J (x.putBack a y) :=
  ⟨h.slots.putBack hy, fun b hb => h.empty b (lookup_putBack_nil hb), hstate⟩

/-- One transfer keeps what its detections keep. -/
theorem Keeps.logTransfer (h : Keeps E P J x) {isNative : Bool} {tokenContract : String}
    {sender recipient : A} {entry : LogEntry A}
    (hinvoice : ∀ info st, (isNative = true → entry.data ≠ 0) → P recipient info →
      isDust entry.data info.effectiveExpected = false → J st →
      J (c.onDetected (invoiceDetection c.isTest info entry.txHash (c.fmt.hex sender)
        (c.fmt.hex recipient) entry.data) st).2)
    (hunmatched : ∀ st, entry.data ≠ 0 → E recipient → J st →
      J (c.onDetected (c.unmatchedDetection isNative tokenContract sender recipient entry) st).2) :
    Keeps E P J (c.logTransfer isNative tokenContract sender recipient entry x) := by
  unfold Scanned.logTransfer
  cases hslot : x.slots.lookup recipient with
  | none => exact h
  | some pending =>
    have hP := h.slots recipient pending (mem_of_lookup hslot)
    simp only
    split
    · exact h
    · rename_i hlooked
      simp only [Bool.and_eq_true, decide_eq_true_eq, Bool.or_eq_true, not_and, not_or] at hlooked
      split
      · rename_i hnone
        obtain rfl := List.isEmpty_iff.mp hnone
        have hnonzero : entry.data ≠ 0 := fun hzero => (hlooked hzero).2 rfl
        exact ⟨h.slots, h.empty, hunmatched x.state hnonzero (h.empty recipient hslot) h.state⟩
      · split
        · rename_i bestIdx info hbest
          have hinfo : info ∈ pending := bestMatchByAmount_mem hbest
          have hlarge := not_dust_of_match hbest
          have hnonzero : isNative = true → entry.data ≠ 0 :=
            fun hnative hzero => (hlooked hzero).1 hnative
          have hstate := hinvoice info x.state hnonzero (hP info hinfo) hlarge h.state
          refine h.putBack (fun i hi => hP i (Scan.mem_of_mem_handOn hi)) ?_
          rw [Scan.state_handOn]
          exact hstate
        · exact h

theorem Keeps.fail (h : Keeps E P J x) : Keeps E P J x.fail := ⟨h.slots, h.empty, h.state⟩

theorem Keeps.foldl {γ : Type} {f : LogScan A σ → γ → LogScan A σ} {ys : List γ}
    (hstep : ∀ y ∈ ys, ∀ x, Keeps E P J x → Keeps E P J (f x y)) (h : Keeps E P J x) :
    Keeps E P J (ys.foldl f x) := by
  induction ys generalizing x with
  | nil => exact h
  | cons y ys ih =>
    have hfirst := hstep y List.mem_cons_self x h
    exact ih (fun z hz => hstep z (List.mem_cons_of_mem _ hz)) hfirst

theorem Keeps.scanChunks {query : Int × Int → Option (List (LogEntry A))}
    {step : LogScan A σ → LogEntry A → LogScan A σ} {ranges : List (Int × Int)}
    (hstep : ∀ range ∈ ranges, ∀ logs, query range = some logs → ∀ entry ∈ logs, ∀ x,
      Keeps E P J x → Keeps E P J (step x entry)) (h : Keeps E P J x) :
    Keeps E P J (scanChunks query step ranges x).1 := by
  induction ranges generalizing x with
  | nil => exact h
  | cons range rest ih =>
    simp only [Evm.scanChunks]
    cases hquery : query range with
    | none => exact h.fail
    | some logs =>
      have hlogs := Keeps.foldl (hstep range List.mem_cons_self logs hquery) h
      simp only
      split
      · exact hlogs
      · exact ih (fun r hr => hstep r (List.mem_cons_of_mem _ hr)) hlogs

theorem mem_chunks {fromBlock toBlock : Int} {range : Int × Int}
    (h : range ∈ chunks fromBlock toBlock) : fromBlock ≤ range.1 ∧ range.2 ≤ toBlock := by
  obtain ⟨k, -, rfl⟩ := List.mem_map.mp h
  simp only [maxLogsChunk]
  omega

variable {client : Client A} {sums : Int → Option Int} {txs : List Transaction}
  {fromBlock toBlock : Int}

/-- The callback keeps `J` on whatever the poll hands on. -/
def HandsOnKeeping (c : Scanned A σ) (client : Client A) (sums : Int → Option Int)
    (txs : List Transaction) (fromBlock toBlock : Int) (J : σ → Prop) : Prop :=
  ∀ d st, c.Detects client sums txs fromBlock toBlock d → J st → J (c.onDetected d st).2

variable (hJ : c.HandsOnKeeping client sums txs fromBlock toBlock J)

include hJ

theorem keeps_scanNativeTransfersByLog
    (h : Keeps (Unawaited c.fmt txs (waitsNative c.fmt))
      (fun a => Slot sums txs (waitsNative c.fmt a)) J x) :
    Keeps (Unawaited c.fmt txs (waitsNative c.fmt)) (fun a => Slot sums txs (waitsNative c.fmt a)) J
      (c.scanNativeTransfersByLog client fromBlock toBlock x).1 := by
  refine Keeps.scanChunks ?_ h
  intro range hrange logs hlogs entry hentry y hy
  have hshown : client.Received fromBlock toBlock entry :=
    ⟨range.1, range.2, _, logs, (mem_chunks hrange).1, (mem_chunks hrange).2, hlogs, hentry⟩
  unfold Scanned.nativeLog
  split
  · rename_i sender rest htopics
    refine hy.logTransfer ?_ ?_
    · rintro info st hnonzero ⟨tx, htx, hwaits, rfl⟩ hlarge hst
      exact hJ _ st (.native hshown htopics (hnonzero rfl) htx hwaits hlarge) hst
    · intro st hnonzero hunawaited hst
      exact hJ _ st (.nativeUnmatched hshown htopics hnonzero hunawaited) hst
  · exact hy

theorem keeps_scanToken {contract : A}
    (h : Keeps (Unawaited c.fmt txs (waitsToken c.fmt contract))
      (fun a => Slot sums txs (waitsToken c.fmt contract a)) J x) :
    Keeps (Unawaited c.fmt txs (waitsToken c.fmt contract))
      (fun a => Slot sums txs (waitsToken c.fmt contract a)) J
      (c.scanToken client fromBlock toBlock contract x).1 := by
  refine Keeps.scanChunks ?_ h
  intro range hrange logs hlogs entry hentry y hy
  have hshown : client.Transferred fromBlock toBlock contract entry :=
    ⟨range.1, range.2, _, logs, (mem_chunks hrange).1, (mem_chunks hrange).2, hlogs, hentry⟩
  unfold Scanned.tokenLog
  split
  · rename_i sender recipient rest htopics
    refine hy.logTransfer ?_ ?_
    · rintro info st - ⟨tx, htx, hwaits, rfl⟩ hlarge hst
      exact hJ _ st (.token hshown htopics htx hwaits hlarge) hst
    · intro st hnonzero hunawaited hst
      exact hJ _ st (.tokenUnmatched hshown htopics hnonzero hunawaited) hst
  · exact hy

theorem keeps_scanTokenTransfers {tokens : List (A × Slots A)} {y : Scan σ × Bool}
    (hslots : ∀ contract m, (contract, m) ∈ tokens →
      SlotsIn (fun a => Slot sums txs (waitsToken c.fmt contract a)) m)
    (hempty : ∀ contract m, (contract, m) ∈ tokens → ∀ a, m.lookup a = some [] →
      Unawaited c.fmt txs (waitsToken c.fmt contract) a)
    (hy : J y.1.state) : J (c.scanTokenTransfers client fromBlock toBlock tokens y).1.state := by
  induction tokens generalizing y with
  | nil => exact hy
  | cons token rest ih =>
    obtain ⟨contract, m⟩ := token
    obtain ⟨y, failed⟩ := y
    have hfirst := keeps_scanToken hJ (x := ⟨m, y.detected, y.failedIDs, y.state⟩)
      ⟨hslots contract m List.mem_cons_self, hempty contract m List.mem_cons_self, hy⟩
    exact ih (fun k m' hm' => hslots k m' (List.mem_cons_of_mem _ hm'))
      (fun k m' hm' => hempty k m' (List.mem_cons_of_mem _ hm')) hfirst.state

theorem keeps_blockTx {bn : Int} (hbounds : fromBlock ≤ bn ∧ bn ≤ toBlock)
    {blockTxs : List (BlockTx A)} (hshown : client.blockByNumber bn = some blockTxs)
    {btx : BlockTx A} (hbtx : btx ∈ blockTxs)
    (h : Keeps E (fun a => Slot sums txs (waitsWallet c.fmt a)) J x) :
    Keeps E (fun a => Slot sums txs (waitsWallet c.fmt a)) J (c.blockTx x btx) := by
  unfold Scanned.blockTx
  cases hto : btx.recipient with
  | none => exact h
  | some recipient =>
    simp only
    cases hslot : x.slots.lookup recipient with
    | none => exact h
    | some pending =>
      have hP := h.slots recipient pending (mem_of_lookup hslot)
      simp only
      split
      · exact h
      · rename_i hlooked
        have hnonzero : btx.value ≠ 0 := by
          intro hzero
          exact hlooked (by simp [hzero])
        split
        · rename_i bestIdx info hbest
          obtain ⟨tx, htx, hwaits, hinfo⟩ := hP info (bestMatchByAmount_mem hbest)
          cases hfrom : btx.sender with
          | none => exact ⟨h.slots, h.empty, h.state⟩
          | some sender =>
            refine h.putBack (fun i hi => hP i (Scan.mem_of_mem_handOn hi)) ?_
            rw [Scan.state_handOn, hinfo]
            have hlarge := not_dust_of_match hbest
            rw [hinfo] at hlarge
            exact hJ _ x.state
              (.value hbounds hshown hbtx hfrom hto hnonzero htx hwaits hlarge) h.state
        · exact h

theorem keeps_scanBlocks {bns : List Int} (hbns : ∀ bn ∈ bns, fromBlock ≤ bn ∧ bn ≤ toBlock)
    (h : Keeps E (fun a => Slot sums txs (waitsWallet c.fmt a)) J x) :
    Keeps E (fun a => Slot sums txs (waitsWallet c.fmt a)) J (c.scanBlocks client bns x) := by
  induction bns generalizing x with
  | nil => exact h
  | cons bn rest ih =>
    have hrest := fun b hb => hbns b (List.mem_cons_of_mem _ hb)
    simp only [Scanned.scanBlocks]
    cases hblock : client.blockByNumber bn with
    | none => exact ih hrest h
    | some blockTxs =>
      have hdone := Keeps.foldl (fun btx hbtx y hy =>
        keeps_blockTx hJ (hbns bn List.mem_cons_self) hblock hbtx hy) h
      simp only
      split
      · exact hdone
      · exact ih hrest hdone

theorem keeps_scanRange {isTest : Bool} {chainTokens : List CryptoCurrency} {st : σ}
    (hst : J st) :
    J (c.scanRange client (watch c.fmt isTest sums chainTokens txs) fromBlock toBlock
      st).1.state := by
  have hw : Sound c.fmt sums txs (watch c.fmt isTest sums chainTokens txs) :=
    sound_watch isTest chainTokens
  have hemptyNative : ∀ a,
      (watch c.fmt isTest sums chainTokens txs).nativeAddressesContract.lookup a = some [] →
        Unawaited c.fmt txs (waitsNative c.fmt) a := fun _ => unawaited_native
  have hemptyToken : ∀ contract m,
      (contract, m) ∈ (watch c.fmt isTest sums chainTokens txs).tokenAddresses →
        ∀ a, m.lookup a = some [] → Unawaited c.fmt txs (waitsToken c.fmt contract) a :=
    fun _ _ hm _ => unawaited_token hm
  generalize watch c.fmt isTest sums chainTokens txs = w at hw hemptyNative hemptyToken ⊢
  have hnative : J (if w.nativeAddressesContract.isEmpty then
      ((⟨[], 0, [], st⟩ : LogScan A σ), false)
        else c.scanNativeTransfersByLog client fromBlock toBlock
          ⟨w.nativeAddressesContract, 0, [], st⟩).1.state := by
    split
    · exact hst
    · exact (keeps_scanNativeTransfersByLog hJ ⟨hw.native, hemptyNative, hst⟩).state
  unfold Scanned.scanRange
  simp only
  refine keeps_scanTokenTransfers hJ hw.token hemptyToken ?_
  generalize (if w.nativeAddressesContract.isEmpty then ((⟨[], 0, [], st⟩ : LogScan A σ), false)
    else c.scanNativeTransfersByLog client fromBlock toBlock
      ⟨w.nativeAddressesContract, 0, [], st⟩) = native at hnative ⊢
  split
  · exact hnative
  · have hbns : ∀ bn ∈ (List.range (toBlock - fromBlock + 1).toNat).map
        fun k : ℕ => fromBlock + (k : Int), fromBlock ≤ bn ∧ bn ≤ toBlock := by
      intro bn hbn
      obtain ⟨k, hk, rfl⟩ := List.mem_map.mp hbn
      have hlt := List.mem_range.mp hk
      omega
    have hkeeps : Keeps (fun _ => True) (fun a => Slot sums txs (waitsWallet c.fmt a)) J
        { native.1 with slots := w.nativeAddressesEOA } :=
      ⟨hw.wallet, fun _ _ => trivial, hnative⟩
    exact (keeps_scanBlocks hJ hbns hkeeps).state

end

/-- Whatever every detection of the scanned range keeps, the poll keeps. -/
theorem keeps_pollEVMTransactions {cfg : Evm.Config} {client : Option (Client A)}
    {sums : Int → Option Int} {chainTokens : List CryptoCurrency} {txs : List Transaction}
    {cursor : Option Int} {J : σ → Prop} {st : σ}
    (hJ : ∀ node currentBlock, client = some node → node.blockNumber = some currentBlock →
      c.HandsOnKeeping node sums txs (cfg.fromBlock (safeHead currentBlock) cursor)
        (cfg.toBlock (safeHead currentBlock) (cfg.fromBlock (safeHead currentBlock) cursor)) J)
    (hst : J st) :
    J (c.pollEVMTransactions cfg client sums chainTokens txs cursor st).state := by
  unfold Scanned.pollEVMTransactions
  cases hclient : client with
  | none => exact hst
  | some node =>
    simp only
    cases hblock : node.blockNumber with
    | none => exact hst
    | some currentBlock =>
      simp only
      split
      · exact hst
      · exact keeps_scanRange (hJ node currentBlock hclient hblock) hst

end Scanned

end Evm

end CryptoLink
