import CryptoLink.Library.Tilings
import CryptoLink.Watcher.Evm

/-!
# The loops over blocks

The loops of the three scans as they run, turn by turn, with the ranges of
blocks they ask a node for. They end, and leave what the scans return.
-/

namespace CryptoLink

namespace Evm

open Tilings

variable {A σ : Type}

/-- What a loop over chunks asked for and what it left. -/
structure ChunkRun (A σ : Type) where
  asked : List (Int × Int)
  scan : LogScan A σ
  rpcFailed : Bool

/-- The loop over the chunks from `chunkFrom` on; `none` if the turns run out. -/
def chunkLoop (query : Int × Int → Option (List (LogEntry A)))
    (step : LogScan A σ → LogEntry A → LogScan A σ) (toBlock : Int) :
    ℕ → Int → LogScan A σ → Option (ChunkRun A σ)
  | 0, _, _ => none
  | turns + 1, chunkFrom, x =>
    if chunkFrom ≤ toBlock then
      let chunkTo := if toBlock < chunkFrom + maxLogsChunk then toBlock
        else chunkFrom + maxLogsChunk
      match query (chunkFrom, chunkTo) with
      | none => some ⟨[(chunkFrom, chunkTo)], x.fail, true⟩
      | some logs =>
        let y := logs.foldl step x
        if y.slots.isEmpty then some ⟨[(chunkFrom, chunkTo)], y, false⟩
        else (chunkLoop query step toBlock turns (chunkFrom + (maxLogsChunk + 1)) y).map fun r =>
          { r with asked := (chunkFrom, chunkTo) :: r.asked }
    else some ⟨[], x, false⟩

/-- The blocks a loop over a range asked for and what it left. -/
structure BlockRun (A σ : Type) where
  asked : List Int
  scan : LogScan A σ

/-- The loop over the blocks from `bn` on. -/
def blockLoop (blockByNumber : Int → Option (List (BlockTx A)))
    (step : LogScan A σ → BlockTx A → LogScan A σ) (toBlock : Int) :
    ℕ → Int → LogScan A σ → Option (BlockRun A σ)
  | 0, _, _ => none
  | turns + 1, bn, x =>
    if bn ≤ toBlock then
      match blockByNumber bn with
      | none => (blockLoop blockByNumber step toBlock turns (bn + 1) x).map fun r =>
          { r with asked := bn :: r.asked }
      | some txs =>
        let y := txs.foldl step x
        if y.slots.isEmpty then some ⟨[bn], y⟩
        else (blockLoop blockByNumber step toBlock turns (bn + 1) y).map fun r =>
          { r with asked := bn :: r.asked }
    else some ⟨[], x⟩

section Chunks

variable {fromBlock toBlock : Int}

theorem chunks_nil (h : toBlock < fromBlock) : chunks fromBlock toBlock = [] := by
  have hcount : ((toBlock - fromBlock) / (maxLogsChunk + 1) + 1).toNat = 0 := by
    unfold maxLogsChunk
    omega
  rw [chunks, hcount]
  rfl

/-- The first chunk, and the chunks from the block after it. -/
theorem chunks_cons (h : fromBlock ≤ toBlock) :
    chunks fromBlock toBlock = (fromBlock, min (fromBlock + maxLogsChunk) toBlock) ::
      chunks (fromBlock + (maxLogsChunk + 1)) toBlock := by
  have hcount : ((toBlock - fromBlock) / (maxLogsChunk + 1) + 1).toNat =
      ((toBlock - (fromBlock + (maxLogsChunk + 1))) / (maxLogsChunk + 1) + 1).toNat + 1 := by
    unfold maxLogsChunk
    omega
  rw [chunks, hcount, List.range_succ_eq_map, List.map_cons, List.map_map, chunks]
  refine congrArg₂ List.cons ?_ (List.map_congr_left fun k _ => ?_)
  · simp
  · simp only [Function.comp_apply, Nat.cast_succ, Prod.mk.injEq]
    unfold maxLogsChunk
    constructor
    · omega
    · omega

/-- The end of a turn's range. -/
theorem chunkTo_eq (chunkFrom : Int) :
    (if toBlock < chunkFrom + maxLogsChunk then toBlock else chunkFrom + maxLogsChunk) =
      min (chunkFrom + maxLogsChunk) toBlock := by
  split
  · omega
  · omega

end Chunks

/-- The first block of a range, and the blocks after it. -/
theorem blocks_cons {fromBlock toBlock : Int} (h : fromBlock ≤ toBlock) :
    (List.range (toBlock - fromBlock + 1).toNat).map (fun k : ℕ => fromBlock + k) =
      fromBlock :: (List.range (toBlock - (fromBlock + 1) + 1).toNat).map
        fun k : ℕ => fromBlock + 1 + k := by
  have hcount : (toBlock - fromBlock + 1).toNat = (toBlock - (fromBlock + 1) + 1).toNat + 1 := by
    omega
  rw [hcount, List.range_succ_eq_map, List.map_cons, List.map_map]
  refine congrArg₂ List.cons (by simp) (List.map_congr_left fun k _ => ?_)
  simp only [Function.comp_apply, Nat.cast_succ]
  omega

/-- What holds of a loop that has asked for `asked` and ended. -/
structure ChunkRun.Covers (query : Int × Int → Option (List (LogEntry A)))
    (fromBlock toBlock : Int) (r : ChunkRun A σ) : Prop where
  short : ∀ q ∈ r.asked, q.2 - q.1 + 1 ≤ 21
  failed : r.rpcFailed = true ↔ ∃ q ∈ r.asked, query q = none
  tiles : ∃ stop, Tiles fromBlock stop r.asked ∧
    (stop = toBlock + 1 ∨ stop ≤ toBlock ∧ (r.rpcFailed = true ∨ r.scan.slots = []))

/-- The chunks asked for lie in the range, one behind the other, and every block
of it is in one of them unless the loop stopped early. -/
structure ChunkRun.InOrder (fromBlock toBlock : Int) (r : ChunkRun A σ) : Prop where
  inside : ∀ q ∈ r.asked, fromBlock ≤ q.1 ∧ q.1 ≤ q.2 ∧ q.2 ≤ toBlock
  disjoint : r.asked.Pairwise fun q q' => q.2 < q'.1
  exhaustive : r.rpcFailed = false → r.scan.slots ≠ [] →
    ∀ bn, fromBlock ≤ bn → bn ≤ toBlock → ∃ q ∈ r.asked, q.1 ≤ bn ∧ bn ≤ q.2

theorem ChunkRun.Covers.inOrder {query : Int × Int → Option (List (LogEntry A))}
    {fromBlock toBlock : Int} {r : ChunkRun A σ} (h : r.Covers query fromBlock toBlock) :
    r.InOrder fromBlock toBlock := by
  obtain ⟨stop, htiles, hstop⟩ := h.tiles
  constructor
  · intro q hq
    have := htiles.bounds hq
    omega
  · exact htiles.pairwise
  · intro hanswered hwatched bn hfirst hlast
    rcases hstop with rfl | ⟨-, hfailed | hnone⟩
    · exact (htiles.mem_iff bn).mpr ⟨hfirst, by omega⟩
    · rw [hanswered] at hfailed
      cases hfailed
    · exact absurd hnone hwatched

section

variable {query : Int × Int → Option (List (LogEntry A))}
  {step : LogScan A σ → LogEntry A → LogScan A σ} {toBlock : Int}

/-- One turn in front of a loop that covers the rest. -/
theorem ChunkRun.Covers.cons {fromBlock last : Int} {r : ChunkRun A σ}
    (h : r.Covers query (last + 1) toBlock) (hle : fromBlock ≤ last)
    (hshort : last - fromBlock + 1 ≤ 21) (hanswered : (query (fromBlock, last)).isSome) :
    ({ r with asked := (fromBlock, last) :: r.asked } : ChunkRun A σ).Covers query fromBlock
      toBlock := by
  constructor
  · intro q hq
    rcases List.mem_cons.mp hq with rfl | hmem
    · exact hshort
    · exact h.short q hmem
  · refine h.failed.trans ?_
    constructor
    · rintro ⟨q, hq, hnone⟩
      exact ⟨q, List.mem_cons_of_mem _ hq, hnone⟩
    · rintro ⟨q, hq, hnone⟩
      rcases List.mem_cons.mp hq with rfl | hmem
      · rw [hnone] at hanswered
        cases hanswered
      · exact ⟨q, hmem, hnone⟩
  · obtain ⟨stop, htiles, hstop⟩ := h.tiles
    exact ⟨stop, .cons hle htiles, hstop⟩

/-- A loop that stops in its first turn. -/
theorem ChunkRun.Covers.single {fromBlock last : Int} {scan : LogScan A σ} {rpcFailed : Bool}
    (hle : fromBlock ≤ last) (hlast : last ≤ toBlock) (hshort : last - fromBlock + 1 ≤ 21)
    (hfailed : rpcFailed = true ↔ query (fromBlock, last) = none)
    (hstop : rpcFailed = true ∨ scan.slots = []) :
    (⟨[(fromBlock, last)], scan, rpcFailed⟩ : ChunkRun A σ).Covers query fromBlock toBlock := by
  constructor
  · intro q hq
    obtain rfl := List.mem_singleton.mp hq
    exact hshort
  · simpa using hfailed
  · refine ⟨last + 1, Tiles.single hle, ?_⟩
    by_cases hend : last = toBlock
    · exact .inl (by omega)
    · exact .inr ⟨by omega, hstop⟩

/-- The loop ends within as many turns as there are blocks, leaves what the scan
over the list of chunks returns, and covers its range. -/
theorem chunkLoop_ends (query : Int × Int → Option (List (LogEntry A)))
    (step : LogScan A σ → LogEntry A → LogScan A σ) (turns : ℕ) (fromBlock : Int) (x : LogScan A σ)
    (hturns : (toBlock + 1 - fromBlock).toNat < turns) (hfrom : fromBlock ≤ toBlock + 1) :
    ∃ r, chunkLoop query step toBlock turns fromBlock x = some r ∧
      (r.scan, r.rpcFailed) = scanChunks query step (chunks fromBlock toBlock) x ∧
      r.Covers query fromBlock toBlock := by
  induction turns generalizing fromBlock x with
  | zero => omega
  | succ turns ih =>
    by_cases hmore : fromBlock ≤ toBlock
    · have hle : fromBlock ≤ min (fromBlock + maxLogsChunk) toBlock := by
        unfold maxLogsChunk
        omega
      have hlast : min (fromBlock + maxLogsChunk) toBlock ≤ toBlock := min_le_right _ _
      have hshort : min (fromBlock + maxLogsChunk) toBlock - fromBlock + 1 ≤ 21 := by
        unfold maxLogsChunk
        omega
      rw [chunks_cons hmore]
      simp only [chunkLoop, if_pos hmore, chunkTo_eq, scanChunks]
      cases hquery : query (fromBlock, min (fromBlock + maxLogsChunk) toBlock) with
      | none => exact ⟨_, rfl, rfl, .single hle hlast hshort (by simp [hquery]) (.inl rfl)⟩
      | some logs =>
        simp only
        by_cases hempty : (logs.foldl step x).slots.isEmpty = true
        · rw [if_pos hempty, if_pos hempty]
          exact ⟨_, rfl, rfl, .single hle hlast hshort (by simp [hquery])
            (.inr (List.isEmpty_iff.mp hempty))⟩
        · rw [if_neg hempty, if_neg hempty]
          -- the next turn starts one past this chunk, unless the range is done
          by_cases hrest : fromBlock + maxLogsChunk ≤ toBlock
          · have hmin : min (fromBlock + maxLogsChunk) toBlock = fromBlock + maxLogsChunk :=
              min_eq_left hrest
            rw [hmin] at hquery hle hshort ⊢
            obtain ⟨r, hrun, hscan, hcovers⟩ := ih (fromBlock + (maxLogsChunk + 1))
              (logs.foldl step x) (by unfold maxLogsChunk at *; omega)
              (by unfold maxLogsChunk at *; omega)
            rw [hrun]
            refine ⟨_, rfl, hscan, ?_⟩
            exact .cons (by rw [add_assoc]; exact hcovers) hle hshort (by simp [hquery])
          · have hmin : min (fromBlock + maxLogsChunk) toBlock = toBlock :=
              min_eq_right (by omega)
            rw [hmin] at hquery hle hshort ⊢
            have hpast : ¬ fromBlock + (maxLogsChunk + 1) ≤ toBlock := by
              unfold maxLogsChunk at *
              omega
            obtain ⟨turns, rfl⟩ : ∃ n, turns = n + 1 := ⟨turns - 1, by omega⟩
            rw [chunks_nil (by omega)]
            simp only [chunkLoop, if_neg hpast, scanChunks, Option.map_some]
            refine ⟨_, rfl, rfl, ?_, ?_, toBlock + 1, Tiles.single hle, .inl rfl⟩
            · intro q hq
              obtain rfl := List.mem_singleton.mp hq
              exact hshort
            · simp [hquery]
    · rw [chunks_nil (by omega)]
      simp only [chunkLoop, if_neg hmore, scanChunks]
      refine ⟨_, rfl, rfl, by simp, by simp, fromBlock, .nil _, .inl (by omega)⟩

end

/-- The block loop ends too, leaves what the scan of its blocks returns, and
asks for blocks of its range only, each once and in order. -/
theorem blockLoop_ends [DecidableEq A] (c : Scanned A σ) (client : Client A) {toBlock : Int}
    (turns : ℕ) (fromBlock : Int) (x : LogScan A σ)
    (hturns : (toBlock + 1 - fromBlock).toNat < turns) (hfrom : fromBlock ≤ toBlock + 1) :
    ∃ r, blockLoop client.blockByNumber c.blockTx toBlock turns fromBlock x = some r ∧
      r.scan = c.scanNativeTransfers client fromBlock toBlock x ∧
      ∃ stop, Tiles fromBlock stop (r.asked.map fun bn => (bn, bn)) ∧ stop ≤ toBlock + 1 := by
  induction turns generalizing fromBlock x with
  | zero => omega
  | succ turns ih =>
    by_cases hmore : fromBlock ≤ toBlock
    · obtain ⟨hblocks, hnext⟩ : (fromBlock ≤ fromBlock) ∧ fromBlock + 1 ≤ toBlock + 1 := by omega
      have hturns' : (toBlock + 1 - (fromBlock + 1)).toNat < turns := by omega
      simp only [blockLoop, if_pos hmore, Scanned.scanNativeTransfers, blocks_cons hmore,
        Scanned.scanBlocks]
      cases hanswer : client.blockByNumber fromBlock with
      | none =>
        obtain ⟨r, hrun, hscan, stop, htiles, hstop⟩ := ih (fromBlock + 1) x hturns' hnext
        simp only [hrun, Option.map_some]
        exact ⟨_, rfl, hscan, stop, .cons hblocks htiles, hstop⟩
      | some txs =>
        simp only
        by_cases hempty : (txs.foldl c.blockTx x).slots.isEmpty = true
        · rw [if_pos hempty, if_pos hempty]
          exact ⟨_, rfl, rfl, fromBlock + 1, Tiles.single hblocks, hnext⟩
        · rw [if_neg hempty, if_neg hempty]
          obtain ⟨r, hrun, hscan, stop, htiles, hstop⟩ :=
            ih (fromBlock + 1) (txs.foldl c.blockTx x) hturns' hnext
          rw [hrun]
          exact ⟨_, rfl, hscan, stop, .cons hblocks htiles, hstop⟩
    · have hnone : (toBlock - fromBlock + 1).toNat = 0 := by omega
      simp only [blockLoop, if_neg hmore, Scanned.scanNativeTransfers, hnone, List.range_zero,
        List.map_nil, Scanned.scanBlocks]
      exact ⟨_, rfl, rfl, fromBlock, .nil _, hfrom⟩

end Evm

end CryptoLink
