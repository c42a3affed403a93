import CryptoLink.Calls
import CryptoLink.Watcher.Evm
import CryptoLink.Watcher.Tron

/-!
# One pass over the open invoices

What a single pass of a scanner binds: every transfer the callback takes for an
invoice removes that invoice from the slots of its address, and nothing else
leaves them. The callback is any; a record beside its state lists what it took.
-/

namespace CryptoLink

variable {A σ K K' : Type}

/-- The callback, with a record of the matched transfers it took. -/
def recordingTaken (onDetected : OnDetected σ) : OnDetected (σ × List DetectedTransfer) :=
  fun d st =>
    let result := onDetected d st.1
    (result.1, result.2, if result.1 && d.pendingTx.isSome then st.2 ++ [d] else st.2)

section

variable {onDetected : OnDetected σ} {d : DetectedTransfer} (bestIdx : ℕ) {info : PendingInfo}
  (x : Scan (σ × List DetectedTransfer))

theorem handOn_taken (h : (onDetected d x.state.1).1 = true) (hd : d.pendingTx = some info.tx) :
    (x.handOn (recordingTaken onDetected) bestIdx info d).pending =
        removePending x.pending bestIdx ∧
      (x.handOn (recordingTaken onDetected) bestIdx info d).state.2 = x.state.2 ++ [d] := by
  simp [Scan.handOn, recordingTaken, h, hd]

theorem handOn_refused (info : PendingInfo) (h : (onDetected d x.state.1).1 = false) :
    (x.handOn (recordingTaken onDetected) bestIdx info d).pending = x.pending ∧
      (x.handOn (recordingTaken onDetected) bestIdx info d).state.2 = x.state.2 := by
  simp [Scan.handOn, recordingTaken, h]

end

/-- The invoices in the slots of several keys. -/
def invoicesOf (slots : List (K × List PendingInfo)) : List Transaction :=
  slots.flatMap fun p => p.2.map PendingInfo.tx

theorem invoicesOf_cons (k : K) (pending : List PendingInfo)
    (slots : List (K × List PendingInfo)) :
    invoicesOf ((k, pending) :: slots) = pending.map PendingInfo.tx ++ invoicesOf slots := rfl

theorem invoicesOf_perm {slots slots' : List (K × List PendingInfo)} (h : slots.Perm slots') :
    (invoicesOf slots).Perm (invoicesOf slots') := h.flatMap_right _

/-- The transfers taken between two states of the slots. A key is shown on a
transfer as its recipient. -/
structure BindsOnce (shown : K → String) (initial left : List (K × List PendingInfo))
    (taken : List DetectedTransfer) : Prop where
  minus : (taken.filterMap DetectedTransfer.pendingTx ++ invoicesOf left).Perm (invoicesOf initial)
  kept : ∀ k pending, (k, pending) ∈ left → ∃ before, (k, before) ∈ initial ∧ pending ⊆ before
  origin : ∀ d ∈ taken, ∃ k pending info, (k, pending) ∈ initial ∧ info ∈ pending ∧
    d.pendingTx = some info.tx ∧ d.recipientAddress = shown k

namespace BindsOnce

variable {shown : K → String} {initial left : List (K × List PendingInfo)}
  {taken : List DetectedTransfer}

theorem refl (shown : K → String) (slots : List (K × List PendingInfo)) :
    BindsOnce shown slots slots [] :=
  ⟨.refl _, fun _ pending h => ⟨pending, h, List.Subset.refl _⟩, fun _ h => by cases h⟩

/-- No invoice is bound twice where none has two slots. -/
theorem once (h : BindsOnce shown initial left taken)
    (hset : ((invoicesOf initial).map Transaction.id).Nodup) :
    ((taken.filterMap DetectedTransfer.pendingTx).map Transaction.id).Nodup := by
  have hall := (h.minus.map Transaction.id).nodup_iff.mpr hset
  rw [List.map_append] at hall
  exact hall.of_append_left

/-- One slot taken, in whatever order the slots are left. -/
theorem take {k : K} {pending rest : List PendingInfo} {others after : List (K × List PendingInfo)}
    {info : PendingInfo} {d : DetectedTransfer} (h : BindsOnce shown initial left taken)
    (hleft : left.Perm ((k, pending) :: others)) (hpending : pending.Perm (info :: rest))
    (hafter : (invoicesOf after).Perm (rest.map PendingInfo.tx ++ invoicesOf others))
    (hkeys : ∀ k' pending', (k', pending') ∈ after →
      (k' = k ∧ pending' = rest) ∨ (k', pending') ∈ others)
    (hd : d.pendingTx = some info.tx) (hshown : d.recipientAddress = shown k) :
    BindsOnce shown initial after (taken ++ [d]) := by
  have hmem : (k, pending) ∈ left := hleft.symm.subset List.mem_cons_self
  obtain ⟨before, hbefore, hsubset⟩ := h.kept k pending hmem
  have hinfo : info ∈ pending := hpending.symm.subset List.mem_cons_self
  constructor
  · refine List.Perm.trans ?_ h.minus
    rw [List.filterMap_append, List.append_assoc]
    refine List.Perm.append_left _ ?_
    have hone : [d].filterMap DetectedTransfer.pendingTx = [info.tx] := by
      simp only [List.filterMap_cons, hd, List.filterMap_nil]
    rw [hone]
    calc ([info.tx] ++ invoicesOf after).Perm
          (info.tx :: (rest.map PendingInfo.tx ++ invoicesOf others)) := .cons _ hafter
      _ |>.Perm (pending.map PendingInfo.tx ++ invoicesOf others) :=
          List.Perm.append_right _ (hpending.map PendingInfo.tx).symm
      _ |>.Perm (invoicesOf left) := by
          rw [← invoicesOf_cons k]
          exact (invoicesOf_perm hleft).symm
  · intro k' pending' h'
    rcases hkeys k' pending' h' with ⟨rfl, rfl⟩ | hother
    · exact ⟨before, hbefore, fun x hx => hsubset (hpending.symm.subset (.tail _ hx))⟩
    · exact h.kept k' pending' (hleft.symm.subset (.tail _ hother))
  · intro d' hd'
    rcases List.mem_append.mp hd' with hold | hnew
    · exact h.origin d' hold
    · obtain rfl := List.mem_singleton.mp hnew
      exact ⟨k, before, info, hbefore, hsubset hinfo, hd, hshown⟩

/-- One pass after another over the same slots. -/
theorem trans {after : List (K × List PendingInfo)} {taken' : List DetectedTransfer}
    (h : BindsOnce shown initial left taken) (h' : BindsOnce shown left after taken') :
    BindsOnce shown initial after (taken ++ taken') := by
  constructor
  · rw [List.filterMap_append, List.append_assoc]
    exact (h'.minus.append_left _).trans h.minus
  · intro k pending hmem
    obtain ⟨middle, hmiddle, hsubset⟩ := h'.kept k pending hmem
    obtain ⟨before, hbefore, hsubset'⟩ := h.kept k middle hmiddle
    exact ⟨before, hbefore, fun _ hx => hsubset' (hsubset hx)⟩
  · intro d hd
    rcases List.mem_append.mp hd with hd | hd
    · exact h.origin d hd
    · obtain ⟨k, pending, info, hmem, hinfo, hrest⟩ := h'.origin d hd
      obtain ⟨before, hbefore, hsubset⟩ := h.kept k pending hmem
      exact ⟨k, before, info, hbefore, hsubset hinfo, hrest⟩

/-- The slots in another order, with nothing taken. -/
theorem reorder {after : List (K × List PendingInfo)} (h : BindsOnce shown initial left taken)
    (hperm : after.Perm left) : BindsOnce shown initial after taken := by
  refine ⟨?_, fun k pending hmem => h.kept k pending (hperm.subset hmem), h.origin⟩
  exact (List.Perm.append_left _ (invoicesOf_perm hperm)).trans h.minus

/-- Two passes over different slots. -/
theorem append {initial' left' : List (K × List PendingInfo)} {taken' : List DetectedTransfer}
    (h : BindsOnce shown initial left taken) (h' : BindsOnce shown initial' left' taken') :
    BindsOnce shown (initial ++ initial') (left ++ left') (taken ++ taken') := by
  constructor
  · rw [invoicesOf, invoicesOf, List.flatMap_append, List.flatMap_append, List.filterMap_append]
    refine List.Perm.trans ?_ (h.minus.append h'.minus)
    simp only [List.append_assoc]
    refine List.Perm.append_left _ ?_
    rw [← List.append_assoc, ← List.append_assoc]
    exact List.Perm.append_right _ List.perm_append_comm
  · intro k pending hmem
    rcases List.mem_append.mp hmem with hmem | hmem
    · obtain ⟨before, hbefore, hsubset⟩ := h.kept k pending hmem
      exact ⟨before, List.mem_append_left _ hbefore, hsubset⟩
    · obtain ⟨before, hbefore, hsubset⟩ := h'.kept k pending hmem
      exact ⟨before, List.mem_append_right _ hbefore, hsubset⟩
  · intro d hd
    rcases List.mem_append.mp hd with hd | hd
    · obtain ⟨k, pending, info, hmem, hrest⟩ := h.origin d hd
      exact ⟨k, pending, info, List.mem_append_left _ hmem, hrest⟩
    · obtain ⟨k, pending, info, hmem, hrest⟩ := h'.origin d hd
      exact ⟨k, pending, info, List.mem_append_right _ hmem, hrest⟩

/-- The same slots under longer keys. -/
theorem rekey {shown' : K' → String} (g : K → K') (h : BindsOnce shown initial left taken)
    (hshown : ∀ k, shown' (g k) = shown k) :
    BindsOnce shown' (initial.map fun p => (g p.1, p.2)) (left.map fun p => (g p.1, p.2))
      taken := by
  have hinvoices : ∀ slots : List (K × List PendingInfo),
      invoicesOf (slots.map fun p => (g p.1, p.2)) = invoicesOf slots := by
    intro slots
    simp only [invoicesOf, List.flatMap_map]
  constructor
  · rw [hinvoices, hinvoices]
    exact h.minus
  · intro k' pending hmem
    obtain ⟨p, hp, he⟩ := List.mem_map.mp hmem
    obtain ⟨rfl, rfl⟩ := Prod.mk.inj he
    obtain ⟨before, hbefore, hsubset⟩ := h.kept p.1 p.2 hp
    exact ⟨before, List.mem_map_of_mem (f := fun p : K × List PendingInfo => (g p.1, p.2)) hbefore,
      hsubset⟩
  · intro d hd
    obtain ⟨k, pending, info, hmem, hinfo, htx, hrecipient⟩ := h.origin d hd
    exact ⟨g k, pending, info,
      List.mem_map_of_mem (f := fun p : K × List PendingInfo => (g p.1, p.2)) hmem, hinfo, htx,
      hrecipient.trans (hshown k).symm⟩

end BindsOnce

namespace Evm

variable [DecidableEq A]

theorem perm_of_lookup {a : A} {pending : List PendingInfo} {slots : Slots A}
    (hkeys : (slots.map Prod.fst).Nodup) (h : slots.lookup a = some pending) :
    slots.Perm ((a, pending) :: delete a slots) ∧
      ∀ rest, (assign a rest slots).Perm ((a, rest) :: delete a slots) := by
  induction slots with
  | nil => cases h
  | cons p slots ih =>
    obtain ⟨b, x⟩ := p
    rw [List.map_cons, List.nodup_cons] at hkeys
    by_cases hb : b = a
    · subst hb
      -- no later entry has this key
      have hne : ∀ q ∈ slots, q.1 ≠ b := by
        intro q hq heq
        exact hkeys.1 (List.mem_map.mpr ⟨q, hq, heq⟩)
      have hdelete : delete b ((b, x) :: slots) = slots := by
        simp only [delete, List.filter_cons, ne_eq, not_true_eq_false, decide_false,
          Bool.false_eq_true, if_false]
        exact List.filter_eq_self.mpr fun q hq => by simpa using hne q hq
      have hassign : ∀ rest, assign b rest ((b, x) :: slots) = (b, rest) :: slots := by
        intro rest
        simp only [assign, List.map_cons, if_true]
        congr 1
        conv_rhs => rw [← List.map_id slots]
        exact List.map_congr_left fun q hq => by simp [hne q hq]
      have hx : x = pending := by simpa using h
      rw [hdelete, hx]
      exact ⟨.refl _, fun rest => by rw [← hx, hassign rest]⟩
    · have hrest : slots.lookup a = some pending := by
        rw [List.lookup_cons] at h
        simpa [beq_eq_false_iff_ne.mpr (Ne.symm hb)] using h
      obtain ⟨hslots, hassign⟩ := ih hkeys.2 hrest
      have hdelete : delete a ((b, x) :: slots) = (b, x) :: delete a slots := by
        simp [delete, hb]
      rw [hdelete]
      refine ⟨(hslots.cons _).trans (.swap _ _ _), fun rest => ?_⟩
      have hcons : assign a rest ((b, x) :: slots) = (b, x) :: assign a rest slots := by
        simp [assign, hb]
      rw [hcons]
      exact ((hassign rest).cons _).trans (.swap _ _ _)

theorem keys_delete {a : A} {slots : Slots A} (h : (slots.map Prod.fst).Nodup) :
    ((delete a slots).map Prod.fst).Nodup :=
  h.sublist (List.filter_sublist.map _)

theorem keys_assign (a : A) (rest : List PendingInfo) (slots : Slots A) :
    (assign a rest slots).map Prod.fst = slots.map Prod.fst := by
  rw [assign, List.map_map]
  refine List.map_congr_left fun p _ => ?_
  simp only [Function.comp_apply]
  split
  · rename_i heq
    exact heq.symm
  · rfl

namespace Scanned

/-- The chain of a scan, with the callback recorded. -/
def recorded (c : Scanned A σ) : Scanned A (σ × List DetectedTransfer) :=
  ⟨c.fmt, c.bc, c.isTest, recordingTaken c.onDetected⟩

/-- A scan that started from the slots `initial`, with `prior` on record. -/
structure Tracks (c : Scanned A σ) (initial : Slots A) (prior : List DetectedTransfer)
    (x : LogScan A (σ × List DetectedTransfer)) : Prop where
  keys : (x.slots.map Prod.fst).Nodup
  taken : ∃ taken, x.state.2 = prior ++ taken ∧ BindsOnce c.fmt.hex initial x.slots taken

variable {c : Scanned A σ} {initial : Slots A} {prior : List DetectedTransfer}
  {x : LogScan A (σ × List DetectedTransfer)}

omit [DecidableEq A] in
theorem Tracks.start {slots : Slots A} (hkeys : (slots.map Prod.fst).Nodup) (detected : Int)
    (failedIDs : List Int) (st : σ × List DetectedTransfer) :
    c.Tracks slots st.2 ⟨slots, detected, failedIDs, st⟩ :=
  ⟨hkeys, [], (List.append_nil _).symm, .refl _ _⟩

omit [DecidableEq A] in
theorem Tracks.fail (h : c.Tracks initial prior x) : c.Tracks initial prior x.fail :=
  ⟨h.keys, h.taken⟩

/-- A matched transfer takes its slot or, after an error, none. -/
theorem Tracks.putBack {recipient : A} {pending : List PendingInfo} {bestIdx : ℕ}
    {info : PendingInfo} {d : DetectedTransfer} (h : c.Tracks initial prior x)
    (hslot : x.slots.lookup recipient = some pending) (hinfo : pending[bestIdx]? = some info)
    (hd : d.pendingTx = some info.tx) (hshown : d.recipientAddress = c.fmt.hex recipient) :
    c.Tracks initial prior (x.putBack recipient
      ((x.slotScan pending).handOn (recordingTaken c.onDetected) bestIdx info d)) := by
  obtain ⟨taken, hrecord, hbinds⟩ := h.taken
  obtain ⟨hslots, hassign⟩ := perm_of_lookup h.keys hslot
  have hkeys : ∀ rest : List PendingInfo, ((if rest.isEmpty then delete recipient x.slots
      else assign recipient rest x.slots).map Prod.fst).Nodup := by
    intro rest
    split
    · exact keys_delete h.keys
    · rw [keys_assign]
      exact h.keys
  refine ⟨hkeys _, ?_⟩
  cases hresult : (c.onDetected d x.state.1).1 with
  | false =>
    -- the slots are put back as they were
    obtain ⟨hsame, hstate⟩ := handOn_refused bestIdx (x.slotScan pending) info hresult
    have hpending : pending ≠ [] := by
      rintro rfl
      cases hinfo
    refine ⟨taken, hstate.trans hrecord, ?_⟩
    have hslots' : (x.slotScan pending).pending = pending := rfl
    simp only [LogScan.putBack, hsame, hslots', List.isEmpty_iff, hpending, if_false]
    exact hbinds.reorder ((hassign pending).trans hslots.symm)
  | true =>
    obtain ⟨hremoved, hstate⟩ := handOn_taken bestIdx (x.slotScan pending) hresult hd
    have hrest : pending.Perm (info :: removePending pending bestIdx) := perm_removePending hinfo
    refine ⟨taken ++ [d], ?_, ?_⟩
    · rw [← List.append_assoc, ← hrecord]
      exact hstate
    · have hslots' : (x.slotScan pending).pending = pending := rfl
      simp only [LogScan.putBack, hremoved, hslots']
      by_cases hempty : (removePending pending bestIdx).isEmpty = true
      · rw [if_pos hempty]
        refine hbinds.take hslots hrest ?_ (fun _ _ hmem => .inr hmem) hd hshown
        rw [List.isEmpty_iff.mp hempty]
        exact .refl _
      · rw [if_neg hempty]
        refine hbinds.take hslots hrest (invoicesOf_perm (hassign _)) ?_ hd hshown
        intro k pending' hmem
        rcases List.mem_cons.mp ((hassign _).subset hmem) with he | hother
        · exact .inl (Prod.mk.inj he)
        · exact .inr hother

omit [DecidableEq A] in
theorem Tracks.unmatched {d : DetectedTransfer} (h : c.Tracks initial prior x)
    (hd : d.pendingTx = none) :
    c.Tracks initial prior (x.handOnUnmatched (recordingTaken c.onDetected) d) := by
  obtain ⟨taken, hrecord, hbinds⟩ := h.taken
  refine ⟨h.keys, taken, ?_, hbinds⟩
  simp [LogScan.handOnUnmatched, recordingTaken, hd, hrecord]

theorem Tracks.logTransfer {isNative : Bool} {tokenContract : String} {sender recipient : A}
    {entry : LogEntry A} (h : c.Tracks initial prior x) :
    c.Tracks initial prior (c.recorded.logTransfer isNative tokenContract sender recipient entry
      x) := by
  unfold Scanned.logTransfer
  cases hslot : x.slots.lookup recipient with
  | none => exact h
  | some pending =>
    simp only
    split
    · exact h
    · split
      · exact h.unmatched rfl
      · split
        · rename_i bestIdx info hbest
          obtain ⟨-, hinfo, -⟩ := bestMatchByAmount_eq_some hbest
          exact h.putBack hslot hinfo rfl rfl
        · exact h

theorem Tracks.nativeLog {entry : LogEntry A} (h : c.Tracks initial prior x) :
    c.Tracks initial prior (c.recorded.nativeLog x entry) := by
  unfold Scanned.nativeLog
  split
  · exact h.logTransfer
  · exact h

theorem Tracks.tokenLog {contract : A} {entry : LogEntry A} (h : c.Tracks initial prior x) :
    c.Tracks initial prior (c.recorded.tokenLog contract x entry) := by
  unfold Scanned.tokenLog
  split
  · exact h.logTransfer
  · exact h

theorem Tracks.blockTx {btx : BlockTx A} (h : c.Tracks initial prior x) :
    c.Tracks initial prior (c.recorded.blockTx x btx) := by
  unfold Scanned.blockTx
  cases hto : btx.recipient with
  | none => exact h
  | some recipient =>
    simp only
    cases hslot : x.slots.lookup recipient with
    | none => exact h
    | some pending =>
      simp only
      split
      · exact h
      · split
        · rename_i bestIdx info hbest
          obtain ⟨-, hinfo, -⟩ := bestMatchByAmount_eq_some hbest
          cases hfrom : btx.sender with
          | none => exact ⟨h.keys, h.taken⟩
          | some sender => exact h.putBack hslot hinfo rfl rfl
        · exact h

omit [DecidableEq A] in
theorem Tracks.foldl {γ : Type} {ys : List γ}
    {step : LogScan A (σ × List DetectedTransfer) → γ → LogScan A (σ × List DetectedTransfer)}
    (hstep : ∀ y x, c.Tracks initial prior x → c.Tracks initial prior (step x y))
    (h : c.Tracks initial prior x) : c.Tracks initial prior (ys.foldl step x) := by
  induction ys generalizing x with
  | nil => exact h
  | cons y ys ih => exact ih (hstep y x h)

omit [DecidableEq A] in
theorem Tracks.scanChunks {query : Int × Int → Option (List (LogEntry A))}
    {step : LogScan A (σ × List DetectedTransfer) → LogEntry A →
      LogScan A (σ × List DetectedTransfer)} {ranges : List (Int × Int)}
    (hstep : ∀ entry x, c.Tracks initial prior x → c.Tracks initial prior (step x entry))
    (h : c.Tracks initial prior x) : c.Tracks initial prior (scanChunks query step ranges x).1 := by
  induction ranges generalizing x with
  | nil => exact h
  | cons range rest ih =>
    simp only [Evm.scanChunks]
    cases query range with
    | none => exact h.fail
    | some logs =>
      have hlogs : c.Tracks initial prior (logs.foldl step x) := h.foldl hstep
      simp only
      split
      · exact hlogs
      · exact ih hlogs

theorem Tracks.scanBlocks {client : Client A} {bns : List Int} (h : c.Tracks initial prior x) :
    c.Tracks initial prior (c.recorded.scanBlocks client bns x) := by
  induction bns generalizing x with
  | nil => exact h
  | cons bn rest ih =>
    simp only [Scanned.scanBlocks]
    cases client.blockByNumber bn with
    | none => exact ih h
    | some txs =>
      have htxs : c.Tracks initial prior (txs.foldl c.recorded.blockTx x) :=
        h.foldl fun _ _ hx => hx.blockTx
      simp only
      split
      · exact htxs
      · exact ih htxs

/-- The slots the scan of each token leaves. -/
def tokensLeft (c : Scanned A σ) (client : Client A) (fromBlock toBlock : Int) :
    List (A × Slots A) → Scan σ → List (A × Slots A)
  | [], _ => []
  | (contract, recipients) :: rest, x =>
    let y := (c.scanToken client fromBlock toBlock contract
      ⟨recipients, x.detected, x.failedIDs, x.state⟩).1
    (contract, y.slots) ::
      c.tokensLeft client fromBlock toBlock rest ⟨[], y.detected, y.failedIDs, y.state⟩

end Scanned

/-- The slots under token and recipient. -/
def byToken (tokens : List (A × Slots A)) : List ((A × A) × List PendingInfo) :=
  tokens.flatMap fun token => token.2.map fun p => ((token.1, p.1), p.2)

namespace Scanned

theorem scanTokenTransfers_binds (c : Scanned A σ) (client : Client A) (fromBlock toBlock : Int)
    (tokens : List (A × Slots A)) (hkeys : ∀ token ∈ tokens, (token.2.map Prod.fst).Nodup)
    (y : Scan (σ × List DetectedTransfer)) (failed : Bool) :
    ∃ taken,
      (c.recorded.scanTokenTransfers client fromBlock toBlock tokens (y, failed)).1.state.2 =
        y.state.2 ++ taken ∧
      BindsOnce (fun key => c.fmt.hex key.2) (byToken tokens)
        (byToken (c.recorded.tokensLeft client fromBlock toBlock tokens y)) taken := by
  induction tokens generalizing y failed with
  | nil => exact ⟨[], (List.append_nil _).symm, .refl _ _⟩
  | cons token rest ih =>
    obtain ⟨contract, recipients⟩ := token
    have hscan : c.Tracks recipients y.state.2 (c.recorded.scanToken client fromBlock toBlock
        contract ⟨recipients, y.detected, y.failedIDs, y.state⟩).1 :=
      Tracks.scanChunks (fun _ _ hx => hx.tokenLog)
        (.start (hkeys _ List.mem_cons_self) y.detected y.failedIDs y.state)
    obtain ⟨first, hfirst, hbinds⟩ := hscan.taken
    obtain ⟨others, hothers, hrest⟩ := ih (fun t ht => hkeys t (List.mem_cons_of_mem _ ht))
      ⟨[], _, _, (c.recorded.scanToken client fromBlock toBlock contract
        ⟨recipients, y.detected, y.failedIDs, y.state⟩).1.state⟩ _
    refine ⟨first ++ others, ?_, ?_⟩
    · simp only [Scanned.scanTokenTransfers]
      rw [hothers, hfirst, List.append_assoc]
    · exact (hbinds.rekey (fun a => (contract, a)) fun _ => rfl).append hrest

end Scanned

end Evm

namespace Tron

/-- A matching that answers with a position of the slots it is given. -/
def FindsSlots (found : List PendingInfo → AccountTransaction → Option (ℕ × PendingInfo × Int)) :
    Prop :=
  ∀ pending rtx i info amount, found pending rtx = some (i, info, amount) →
    pending[i]? = some info

/-- The position in the filtered copy leads back to the same invoice. -/
theorem findsSlots_tokenMatch (isTest : Bool) (addr : String) :
    FindsSlots (tokenMatch isTest addr) := by
  intro pending rtx i info amount h
  unfold tokenMatch at h
  split at h
  · cases h
  · split at h
    · cases h
    · simp only at h
      split at h
      · cases h
      · split at h
        · rename_i first _ _ bestSubIdx best hbest
          obtain ⟨slot, hslot, he⟩ := Option.map_eq_some_iff.mp h
          obtain ⟨hposition, he⟩ := Prod.mk.inj he
          obtain ⟨hinfo, -⟩ := Prod.mk.inj he
          obtain ⟨-, hget, -⟩ := bestMatchByAmount_eq_some hbest
          rw [List.getElem?_map, hslot, Option.map_some, hinfo] at hget
          -- the slot carries the position it had before the filter
          have hmem : slot ∈ pending.zipIdx :=
            (List.mem_filter.mp (List.mem_of_getElem? hslot)).1
          rw [← hposition, ← Option.some.inj hget]
          exact List.mem_zipIdx_iff_getElem?.mp hmem
        · cases h

variable {isTest : Bool} {addr : String} {onDetected : OnDetected σ}

theorem pollTransfers_binds
    {found : List PendingInfo → AccountTransaction → Option (ℕ × PendingInfo × Int)}
    (hfound : FindsSlots found) (txs : List AccountTransaction)
    (x : Scan (σ × List DetectedTransfer)) :
    ∃ taken, (pollTransfers isTest addr found (recordingTaken onDetected) txs x).state.2 =
        x.state.2 ++ taken ∧
      BindsOnce (fun _ : Unit => addr) [((), x.pending)]
        [((), (pollTransfers isTest addr found (recordingTaken onDetected) txs x).pending)]
        taken := by
  induction txs generalizing x with
  | nil => exact ⟨[], (List.append_nil _).symm, .refl _ _⟩
  | cons rtx rest ih =>
    simp only [pollTransfers]
    split
    · exact ⟨[], (List.append_nil _).symm, .refl _ _⟩
    · cases hmatch : found x.pending rtx with
      | none => exact ih x
      | some best =>
        obtain ⟨bestIdx, info, amount⟩ := best
        have hinfo := hfound x.pending rtx bestIdx info amount hmatch
        simp only
        generalize hd : invoiceDetection isTest info rtx.txID rtx.sender addr amount = d
        have htx : d.pendingTx = some info.tx := by
          rw [← hd]
          rfl
        have hshown : d.recipientAddress = addr := by
          rw [← hd]
          rfl
        obtain ⟨others, hothers, hrest⟩ :=
          ih (x.handOn (recordingTaken onDetected) bestIdx info d)
        cases hresult : (onDetected d x.state.1).1 with
        | false =>
          obtain ⟨hpending, hrecord⟩ := handOn_refused bestIdx x info hresult
          rw [hpending] at hrest
          exact ⟨others, hothers.trans (by rw [hrecord]), hrest⟩
        | true =>
          obtain ⟨hpending, hrecord⟩ := handOn_taken bestIdx x hresult htx
          rw [hpending] at hrest
          have hone : BindsOnce (fun _ : Unit => addr) [((), x.pending)]
              [((), removePending x.pending bestIdx)] [d] :=
            (BindsOnce.refl _ _).take (.refl _) (perm_removePending hinfo) (.refl _)
              (fun _ _ hmem => .inl (Prod.mk.inj (List.mem_singleton.mp hmem))) htx hshown
          refine ⟨d :: others, ?_, hone.trans hrest⟩
          rw [hothers, hrecord, List.append_assoc]
          rfl

end Tron

/-- Nothing is bound twice, on top of what `BindsOnce` says, if no invoice has
two slots to begin with. -/
structure BindsInjectively (shown : K → String) (initial left : List (K × List PendingInfo))
    (taken : List DetectedTransfer) : Prop where
  binds : BindsOnce shown initial left taken
  once : ((invoicesOf initial).map Transaction.id).Nodup →
    ((taken.filterMap DetectedTransfer.pendingTx).map Transaction.id).Nodup

theorem BindsOnce.injectively {shown : K → String} {initial left : List (K × List PendingInfo)}
    {taken : List DetectedTransfer} (h : BindsOnce shown initial left taken) :
    BindsInjectively shown initial left taken := ⟨h, h.once⟩

/-- One pass of each scanner with any callback, from the state `st` behind it.
The slots of a chain are those of a map: no address has two entries. -/
structure PassBindsOnce [DecidableEq A] (c : Evm.Scanned A σ) (st : σ) : Prop where
  native : ∀ (client : Evm.Client A) (fromBlock toBlock : Int) (slots : Evm.Slots A),
    (slots.map Prod.fst).Nodup →
      let y := (c.recorded.scanNativeTransfersByLog client fromBlock toBlock
        ⟨slots, 0, [], (st, [])⟩).1
      BindsInjectively c.fmt.hex slots y.slots y.state.2
  wallets : ∀ (client : Evm.Client A) (fromBlock toBlock : Int) (slots : Evm.Slots A),
    (slots.map Prod.fst).Nodup →
      let y := c.recorded.scanNativeTransfers client fromBlock toBlock ⟨slots, 0, [], (st, [])⟩
      BindsInjectively c.fmt.hex slots y.slots y.state.2
  token : ∀ (client : Evm.Client A) (fromBlock toBlock : Int) (contract : A)
    (recipients : Evm.Slots A) (prior : List DetectedTransfer), (recipients.map Prod.fst).Nodup →
      let y := (c.recorded.scanToken client fromBlock toBlock contract
        ⟨recipients, 0, [], (st, prior)⟩).1
      ∃ taken, y.state.2 = prior ++ taken ∧ BindsInjectively c.fmt.hex recipients y.slots taken
  tokens : ∀ (client : Evm.Client A) (fromBlock toBlock : Int) (tokens : List (A × Evm.Slots A)),
    (∀ token ∈ tokens, (token.2.map Prod.fst).Nodup) →
      BindsInjectively (fun key => c.fmt.hex key.2) (Evm.byToken tokens)
        (Evm.byToken (c.recorded.tokensLeft client fromBlock toBlock tokens ⟨[], 0, [], (st, [])⟩))
        (c.recorded.scanTokenTransfers client fromBlock toBlock tokens
          (⟨[], 0, [], (st, [])⟩, false)).1.state.2
  tron : ∀ (addr : String) (recentTxs : Except Err (List AccountTransaction))
    (pending : List PendingInfo),
      let y := Tron.pollTRONTokenForAddress c.isTest addr (recordingTaken c.onDetected) recentTxs
        ⟨pending, 0, [], (st, [])⟩
      BindsInjectively (fun _ : Unit => addr) [((), pending)] [((), y.pending)] y.state.2

/-- For every chain, callback, state behind it, node and slots. -/
theorem scan_pass_binds_once [DecidableEq A] (c : Evm.Scanned A σ) (st : σ) :
    PassBindsOnce c st := by
  constructor
  · intro client fromBlock toBlock slots hkeys
    have htracks : c.Tracks slots [] (c.recorded.scanNativeTransfersByLog client fromBlock toBlock
        ⟨slots, 0, [], (st, [])⟩).1 :=
      Evm.Scanned.Tracks.scanChunks (fun _ _ hx => hx.nativeLog) (.start hkeys 0 [] (st, []))
    obtain ⟨taken, hrecord, hbinds⟩ := htracks.taken
    simp only
    rw [hrecord]
    exact hbinds.injectively
  · intro client fromBlock toBlock slots hkeys
    have htracks : c.Tracks slots [] (c.recorded.scanNativeTransfers client fromBlock toBlock
        ⟨slots, 0, [], (st, [])⟩) :=
      Evm.Scanned.Tracks.scanBlocks (.start hkeys 0 [] (st, []))
    obtain ⟨taken, hrecord, hbinds⟩ := htracks.taken
    simp only
    rw [hrecord]
    exact hbinds.injectively
  · intro client fromBlock toBlock contract recipients prior hkeys
    have htracks : c.Tracks recipients prior (c.recorded.scanToken client fromBlock toBlock contract
        ⟨recipients, 0, [], (st, prior)⟩).1 :=
      Evm.Scanned.Tracks.scanChunks (fun _ _ hx => hx.tokenLog) (.start hkeys 0 [] (st, prior))
    obtain ⟨taken, hrecord, hbinds⟩ := htracks.taken
    exact ⟨taken, hrecord, hbinds.injectively⟩
  · intro client fromBlock toBlock tokens hkeys
    obtain ⟨taken, hrecord, hbinds⟩ := c.scanTokenTransfers_binds client fromBlock toBlock tokens
      hkeys ⟨[], 0, [], (st, [])⟩ false
    rw [hrecord]
    exact hbinds.injectively
  · intro addr recentTxs pending
    cases recentTxs with
    | error e => exact (BindsOnce.refl _ _).injectively
    | ok txs =>
      obtain ⟨taken, hrecord, hbinds⟩ := Tron.pollTransfers_binds
        (Tron.findsSlots_tokenMatch c.isTest addr) txs ⟨pending, 0, [], (st, [])⟩
      simp only [Tron.pollTRONTokenForAddress]
      rw [hrecord]
      exact hbinds.injectively

namespace ThreeReceipts

open Sample

/-- An open invoice at the collector. -/
def waiting (id amount : Int) : PendingInfo :=
  ⟨Service.transactionOf { invoice .pending none none none with id := id, amount := amount } ether
    none, none, none⟩

def slots : Evm.Slots String := [("collector", [waiting 1 100, waiting 2 200])]

def received (txHash : String) (data : Int) : Evm.LogEntry String :=
  ⟨5, "collector", ["payer"], data, txHash⟩

/-- The node shows three receipts, one more than there are invoices. -/
def node : Evm.Client String :=
  ⟨some 9, fun _ => none, fun _ => some [received "0xa" 200, received "0xb" 100,
    received "0xc" 100]⟩

def takesAll : Evm.Scanned String Unit := ⟨⟨id, id⟩, "ETH", false, fun _ state => (true, state)⟩

def scanned : Evm.LogScan String (Unit × List DetectedTransfer) :=
  (takesAll.recorded.scanNativeTransfersByLog node 0 9 ⟨slots, 0, [], ((), [])⟩).1

end ThreeReceipts

open ThreeReceipts in
theorem scan_pass_binds_once_sample :
    (scanned.state.2.map fun d => (d.txHash, d.pendingTx.map Transaction.id)) =
        [("0xa", some 2), ("0xb", some 1)] ∧
      scanned.slots = [] ∧ BindsInjectively id slots scanned.slots scanned.state.2 :=
  ⟨by decide +kernel, by decide +kernel,
    (scan_pass_binds_once takesAll ()).native node 0 9 slots (by decide)⟩

end CryptoLink
