import CryptoLink.Watcher.ChunkLoops

/-!
# Scanning without gaps

The cursor of one chain over any number of polls. The heads a node reports may
come in any order, a poll may find no node and a query may fail. As long as the
cursor is not fast-forwarded, the ranges of the polls that moved it follow one
another without a gap or an overlap.
-/

namespace CryptoLink

namespace Evm

open Tilings

variable {A σ : Type} [DecidableEq A]

/-- What one poll of a chain finds. -/
structure Poll (A σ : Type) where
  client : Option (Client A)
  sums : Int → Option Int
  chainTokens : List CryptoCurrency
  txs : List Transaction
  state : σ

/-- The client and its block number, if the poll gets that far. -/
def Poll.reached (p : Poll A σ) : Option (Client A × ℕ) :=
  p.client.bind fun client => client.blockNumber.map fun currentBlock => (client, currentBlock)

/-- The range of a poll, unless the cursor is past the safe head. -/
def Config.range (cfg : Config) (cursor : Option Int) (currentBlock : ℕ) : Option (Int × Int) :=
  let fromBlock := cfg.fromBlock (safeHead currentBlock) cursor
  if safeHead currentBlock < fromBlock then none
  else some (fromBlock, cfg.toBlock (safeHead currentBlock) fromBlock)

def Config.scanned (cfg : Config) (cursor : Option Int) (p : Poll A σ) : Option (Int × Int) :=
  p.reached.bind fun reached => cfg.range cursor reached.2

namespace Scanned

variable (c : Scanned A σ) (cfg : Config)

def cursorAfter (cursor : Option Int) (p : Poll A σ) : Option Int :=
  (c.pollEVMTransactions cfg p.client p.sums p.chainTokens p.txs cursor p.state).cursor

/-- The polls one after another, each with the cursor it starts from. -/
def passes : Option Int → List (Poll A σ) → List (Option Int × Poll A σ)
  | _, [] => []
  | cursor, p :: rest => (cursor, p) :: passes (c.cursorAfter cfg cursor p) rest

def lastCursor (cursor : Option Int) (polls : List (Poll A σ)) : Option Int :=
  polls.foldl (c.cursorAfter cfg) cursor

/-- The range of a poll that moved the cursor. -/
def advance (pass : Option Int × Poll A σ) : Option (Int × Int) :=
  if c.cursorAfter cfg pass.1 pass.2 = pass.1 then none else cfg.scanned pass.1 pass.2

def NeverForwards (cursor : Option Int) (polls : List (Poll A σ)) : Prop :=
  ∀ pass ∈ c.passes cfg cursor polls, ∀ reached, pass.2.reached = some reached →
    cfg.stale (safeHead reached.2) pass.1 = false

/-- A loop over the chunks of a range: it ends, leaves what the scan returns, and
asks for chunks of the range, all of them unless it stops early. -/
def ChunksCover (query : Int × Int → Option (List (LogEntry A)))
    (step : LogScan A σ → LogEntry A → LogScan A σ) (fromBlock toBlock : Int) (x : LogScan A σ)
    (scan : LogScan A σ × Bool) : Prop :=
  ∃ turns r, chunkLoop query step toBlock turns fromBlock x = some r ∧
    scan = (r.scan, r.rpcFailed) ∧ r.Covers query fromBlock toBlock ∧
    r.InOrder fromBlock toBlock

/-- A loop over the blocks of a range: it ends, leaves what the scan returns, and asks
for blocks of the range only. -/
def BlocksCover (client : Client A) (fromBlock toBlock : Int) (x scan : LogScan A σ) : Prop :=
  ∃ turns r, blockLoop client.blockByNumber c.blockTx toBlock turns fromBlock x = some r ∧
    scan = r.scan ∧ ∀ bn ∈ r.asked, fromBlock ≤ bn ∧ bn ≤ toBlock

/-- The loops over the range for one token after another. -/
def TokensCover (client : Client A) (fromBlock toBlock : Int) :
    List (A × Slots A) → Scan σ × Bool → Scan σ × Bool → Prop
  | [], x, y => y = x
  | (contract, recipients) :: rest, x, y => ∃ scan,
      ChunksCover (fun chunk => client.filterLogs
          (.transfers chunk.1 chunk.2 contract (recipients.map Prod.fst)))
        (c.tokenLog contract) fromBlock toBlock
        ⟨recipients, x.1.detected, x.1.failedIDs, x.1.state⟩ scan ∧
      TokensCover client fromBlock toBlock rest
        (⟨[], scan.1.detected, scan.1.failedIDs, scan.1.state⟩, x.2 || scan.2) y

/-- The three scans of the watched addresses, one after the other, each over the whole
range: `y` is what they leave. -/
def ScansRange (client : Client A) (w : Watched A) (fromBlock toBlock : Int) (state : σ)
    (y : Scan σ × Bool) : Prop :=
  ∃ (native : LogScan A σ × Bool) (blocks : LogScan A σ),
    (if w.nativeAddressesContract.isEmpty then native = (⟨[], 0, [], state⟩, false)
      else ChunksCover (fun chunk => client.filterLogs
          (.received chunk.1 chunk.2 (w.nativeAddressesContract.map Prod.fst)))
        c.nativeLog fromBlock toBlock ⟨w.nativeAddressesContract, 0, [], state⟩ native) ∧
    (if w.nativeAddressesEOA.isEmpty then blocks = native.1
      else c.BlocksCover client fromBlock toBlock
        { native.1 with slots := w.nativeAddressesEOA } blocks) ∧
    c.TokensCover client fromBlock toBlock w.tokenAddresses
      (⟨[], blocks.detected, blocks.failedIDs, blocks.state⟩, native.2) y

/-- A poll from `cursor` on: behind the safe head it scans the whole range first, and
moves the cursor to its end if no query for logs failed; otherwise it does nothing. -/
structure PollSound (cursor : Option Int) (p : Poll A σ) : Prop where
  forward : ∀ last, cursor = some last →
    ∃ next, c.cursorAfter cfg cursor p = some next ∧ last ≤ next
  idle : ∀ client currentBlock, p.reached = some (client, currentBlock) →
    cfg.range cursor currentBlock = none →
      c.pollEVMTransactions cfg p.client p.sums p.chainTokens p.txs cursor p.state =
        ⟨cursor, 0, [], p.state⟩
  scans : ∀ client currentBlock, p.reached = some (client, currentBlock) →
    ∀ fromBlock toBlock, cfg.range cursor currentBlock = some (fromBlock, toBlock) →
      fromBlock ≤ toBlock ∧ toBlock ≤ max ((currentBlock : Int) - 3) 0 ∧
      ∃ y, c.ScansRange client (watch c.fmt c.isTest p.sums p.chainTokens p.txs) fromBlock toBlock
          p.state y ∧
        c.pollEVMTransactions cfg p.client p.sums p.chainTokens p.txs cursor p.state =
          ⟨if y.2 then cursor else some toBlock, y.1.detected, y.1.failedIDs, y.1.state⟩

/-- What holds of all polls together: the ranges that moved the cursor fill the
blocks from the first of them to the cursor. -/
structure Gapless (start : Option Int) (polls : List (Poll A σ)) : Prop where
  contiguous : ∀ last, c.lastCursor cfg start polls = some last →
    ∃ first, Tiles first (last + 1) ((c.passes cfg start polls).filterMap (c.advance cfg)) ∧
      ∀ cursor, start = some cursor → first = cursor + 1
  disjoint : ((c.passes cfg start polls).filterMap (c.advance cfg)).Pairwise
    fun range range' => range.2 < range'.1
  cold : c.lastCursor cfg start polls = none →
    (c.passes cfg start polls).filterMap (c.advance cfg) = []
  each : ∀ pass ∈ c.passes cfg start polls, c.PollSound cfg pass.1 pass.2

end Scanned

section

variable {c : Scanned A σ} {cfg : Config} {cursor : Option Int} {p : Poll A σ}

omit [DecidableEq A] in
theorem chunksCover (query : Int × Int → Option (List (LogEntry A)))
    (step : LogScan A σ → LogEntry A → LogScan A σ) {fromBlock toBlock : Int}
    (h : fromBlock ≤ toBlock) (x : LogScan A σ) :
    Scanned.ChunksCover query step fromBlock toBlock x
      (scanChunks query step (chunks fromBlock toBlock) x) := by
  have hturns : (toBlock + 1 - fromBlock).toNat < (toBlock + 1 - fromBlock).toNat + 1 := by omega
  obtain ⟨r, hrun, hscan, hcovers⟩ := chunkLoop_ends query step _ fromBlock x hturns (by omega)
  exact ⟨_, r, hrun, hscan.symm, hcovers, hcovers.inOrder⟩

theorem blocksCover (client : Client A) {fromBlock toBlock : Int} (h : fromBlock ≤ toBlock)
    (x : LogScan A σ) :
    c.BlocksCover client fromBlock toBlock x
      (c.scanNativeTransfers client fromBlock toBlock x) := by
  have hturns : (toBlock + 1 - fromBlock).toNat < (toBlock + 1 - fromBlock).toNat + 1 := by omega
  obtain ⟨r, hrun, hscan, stop, htiles, hstop⟩ :=
    blockLoop_ends c client _ fromBlock x hturns (by omega)
  refine ⟨_, r, hrun, hscan.symm, ?_⟩
  intro bn hbn
  have := htiles.bounds (List.mem_map_of_mem hbn)
  omega

theorem tokensCover (client : Client A) {fromBlock toBlock : Int} (h : fromBlock ≤ toBlock)
    (tokens : List (A × Slots A)) (x : Scan σ × Bool) :
    c.TokensCover client fromBlock toBlock tokens x
      (c.scanTokenTransfers client fromBlock toBlock tokens x) := by
  induction tokens generalizing x with
  | nil => exact rfl
  | cons token rest ih =>
    obtain ⟨contract, recipients⟩ := token
    obtain ⟨x, failed⟩ := x
    exact ⟨_, chunksCover _ _ h _, ih _⟩

theorem scansRange (client : Client A) (w : Watched A) {fromBlock toBlock : Int}
    (h : fromBlock ≤ toBlock) (state : σ) :
    c.ScansRange client w fromBlock toBlock state
      (c.scanRange client w fromBlock toBlock state) := by
  refine ⟨if w.nativeAddressesContract.isEmpty then (⟨[], 0, [], state⟩, false)
    else c.scanNativeTransfersByLog client fromBlock toBlock
      ⟨w.nativeAddressesContract, 0, [], state⟩, ?_⟩
  generalize hnative : (if w.nativeAddressesContract.isEmpty then (⟨[], 0, [], state⟩, false)
    else c.scanNativeTransfersByLog client fromBlock toBlock
      ⟨w.nativeAddressesContract, 0, [], state⟩) = native
  refine ⟨if w.nativeAddressesEOA.isEmpty then native.1
    else c.scanNativeTransfers client fromBlock toBlock
      { native.1 with slots := w.nativeAddressesEOA }, ?_, ?_, ?_⟩
  · subst hnative
    split
    · rfl
    · exact chunksCover _ _ h _
  · split
    · rfl
    · exact blocksCover client h _
  · rw [Scanned.scanRange, hnative]
    exact tokensCover client h w.tokenAddresses _

theorem safeHead_eq (currentBlock : ℕ) :
    safeHead currentBlock = max ((currentBlock : Int) - 3) 0 := by
  unfold safeHead headBlockBuffer
  omega

theorem maxBlocksPerCycle_new (config : Config) : 0 < config.new.maxBlocksPerCycle := by
  simp only [Config.new]
  split
  · omega
  · omega

theorem range_bounds (hcap : 0 < cfg.maxBlocksPerCycle) {currentBlock : ℕ} {fromBlock toBlock : Int}
    (h : cfg.range cursor currentBlock = some (fromBlock, toBlock)) :
    fromBlock = cfg.fromBlock (safeHead currentBlock) cursor ∧ fromBlock ≤ toBlock ∧
      toBlock ≤ safeHead currentBlock := by
  simp only [Config.range] at h
  split at h
  · cases h
  · obtain ⟨rfl, rfl⟩ := Prod.mk.inj (Option.some.inj h)
    refine ⟨rfl, ?_, ?_⟩
    · simp only [Config.toBlock]
      split
      · omega
      · omega
    · simp only [Config.toBlock]
      split
      · omega
      · omega

/-- A poll that does not fast-forward leaves the cursor or moves it to the end of
its range. -/
theorem cursorAfter_cases (c : Scanned A σ)
    (hstale : ∀ reached, p.reached = some reached →
      cfg.stale (safeHead reached.2) cursor = false) :
    c.cursorAfter cfg cursor p = cursor ∨
      ∃ range, cfg.scanned cursor p = some range ∧
        c.cursorAfter cfg cursor p = some range.2 := by
  cases hclient : p.client with
  | none => exact .inl (by simp only [Scanned.cursorAfter, Scanned.pollEVMTransactions, hclient])
  | some client =>
    cases hblock : client.blockNumber with
    | none =>
      exact .inl (by simp only [Scanned.cursorAfter, Scanned.pollEVMTransactions, hclient, hblock])
    | some currentBlock =>
      have hreached : p.reached = some (client, currentBlock) := by
        simp only [Poll.reached, hclient, hblock, Option.bind_some, Option.map_some]
      have hforwarded : cfg.forwarded (safeHead currentBlock) cursor = cursor := by
        simp [Config.forwarded, hstale _ hreached]
      simp only [Scanned.cursorAfter, Scanned.pollEVMTransactions, hclient, hblock, Config.scanned,
        hreached, Config.range, Option.bind_some, hforwarded]
      split
      · exact .inl rfl
      · split
        · exact .inl rfl
        · exact .inr ⟨_, rfl, rfl⟩

/-- With a cursor and without a fast-forward, the range starts right behind it. -/
theorem fromBlock_of_cursor {head last : Int} (h : cfg.stale head (some last) = false) :
    cfg.fromBlock head (some last) = last + 1 := by
  simp [Config.fromBlock, h, Config.firstBlock]

omit [DecidableEq A] in
/-- The range of a poll that moved the cursor, and where it starts. -/
theorem scanned_spec (hcap : 0 < cfg.maxBlocksPerCycle)
    (hstale : ∀ reached, p.reached = some reached →
      cfg.stale (safeHead reached.2) cursor = false)
    {range : Int × Int} (h : cfg.scanned cursor p = some range) :
    range.1 ≤ range.2 ∧ ∀ last, cursor = some last → range.1 = last + 1 := by
  obtain ⟨reached, hreached, hrange⟩ := Option.bind_eq_some_iff.mp h
  obtain ⟨hfrom, hle, -⟩ := range_bounds hcap hrange
  refine ⟨hle, ?_⟩
  rintro last rfl
  rw [hfrom, fromBlock_of_cursor (hstale reached hreached)]

/-- A poll that reaches the node and has nothing to scan. -/
theorem poll_of_no_range (c : Scanned A σ) {client : Client A} {currentBlock : ℕ}
    (hreached : p.reached = some (client, currentBlock))
    (hstale : cfg.stale (safeHead currentBlock) cursor = false)
    (hrange : cfg.range cursor currentBlock = none) :
    c.pollEVMTransactions cfg p.client p.sums p.chainTokens p.txs cursor p.state =
      ⟨cursor, 0, [], p.state⟩ := by
  obtain ⟨client', hclient, hblock⟩ := Option.bind_eq_some_iff.mp hreached
  obtain ⟨block, hnumber, hboth⟩ := Option.map_eq_some_iff.mp hblock
  obtain ⟨rfl, rfl⟩ := Prod.mk.inj hboth
  have hforwarded : cfg.forwarded (safeHead block) cursor = cursor := by
    simp [Config.forwarded, hstale]
  have hpast : safeHead block < cfg.fromBlock (safeHead block) cursor := by
    by_contra hbehind
    rw [Config.range, if_neg hbehind] at hrange
    cases hrange
  simp only [Scanned.pollEVMTransactions, hclient, hnumber, hforwarded, if_pos hpast]

/-- A poll that reaches the node and scans. -/
theorem poll_of_range (c : Scanned A σ) {client : Client A} {currentBlock : ℕ}
    (hreached : p.reached = some (client, currentBlock))
    (hstale : cfg.stale (safeHead currentBlock) cursor = false) {fromBlock toBlock : Int}
    (hrange : cfg.range cursor currentBlock = some (fromBlock, toBlock))
    {y : Scan σ × Bool} (hy : c.scanRange client
      (watch c.fmt c.isTest p.sums p.chainTokens p.txs) fromBlock toBlock p.state = y) :
    c.pollEVMTransactions cfg p.client p.sums p.chainTokens p.txs cursor p.state =
      ⟨if y.2 then cursor else some toBlock, y.1.detected, y.1.failedIDs, y.1.state⟩ := by
  obtain ⟨client', hclient, hblock⟩ := Option.bind_eq_some_iff.mp hreached
  obtain ⟨block, hnumber, hboth⟩ := Option.map_eq_some_iff.mp hblock
  obtain ⟨rfl, rfl⟩ := Prod.mk.inj hboth
  have hforwarded : cfg.forwarded (safeHead block) cursor = cursor := by
    simp [Config.forwarded, hstale]
  by_cases hpast : safeHead block < cfg.fromBlock (safeHead block) cursor
  · rw [Config.range, if_pos hpast] at hrange
    cases hrange
  · rw [Config.range, if_neg hpast] at hrange
    obtain ⟨rfl, rfl⟩ := Prod.mk.inj (Option.some.inj hrange)
    simp only [Scanned.pollEVMTransactions, hclient, hnumber, hforwarded, if_neg hpast, hy]

theorem pollSound (hcap : 0 < cfg.maxBlocksPerCycle)
    (hstale : ∀ reached, p.reached = some reached →
      cfg.stale (safeHead reached.2) cursor = false) :
    c.PollSound cfg cursor p := by
  constructor
  · intro last hlast
    rcases cursorAfter_cases c hstale with hsame | ⟨range, hscanned, hafter⟩
    · exact ⟨last, hsame.trans hlast, le_rfl⟩
    · obtain ⟨hle, hfirst⟩ := scanned_spec hcap hstale hscanned
      have := hfirst last hlast
      exact ⟨range.2, hafter, by omega⟩
  · intro client currentBlock hreached hrange
    have hfresh : cfg.stale (safeHead currentBlock) cursor = false :=
      hstale (client, currentBlock) hreached
    exact poll_of_no_range c hreached hfresh hrange
  · intro client currentBlock hreached fromBlock toBlock hrange
    obtain ⟨-, hle, hhead⟩ := range_bounds hcap hrange
    rw [safeHead_eq] at hhead
    have hscans := scansRange (c := c) client (watch c.fmt c.isTest p.sums p.chainTokens p.txs) hle
      p.state
    generalize hy : c.scanRange client (watch c.fmt c.isTest p.sums p.chainTokens p.txs) fromBlock
      toBlock p.state = y at hscans
    have hfresh : cfg.stale (safeHead currentBlock) cursor = false :=
      hstale (client, currentBlock) hreached
    have hpoll := poll_of_range c hreached hfresh hrange hy
    exact ⟨hle, hhead, y, hscans, hpoll⟩

end

section

variable {c : Scanned A σ} {cfg : Config}

theorem tiles_of_polls (hcap : 0 < cfg.maxBlocksPerCycle) (polls : List (Poll A σ))
    (start : Option Int) (hnever : c.NeverForwards cfg start polls) :
    (c.lastCursor cfg start polls = start ∧
        (c.passes cfg start polls).filterMap (c.advance cfg) = []) ∨
      ∃ first last, c.lastCursor cfg start polls = some last ∧
        Tiles first (last + 1) ((c.passes cfg start polls).filterMap (c.advance cfg)) ∧
        ∀ cursor, start = some cursor → first = cursor + 1 := by
  induction polls generalizing start with
  | nil => exact .inl ⟨rfl, rfl⟩
  | cons p rest ih =>
    have hstale : ∀ reached, p.reached = some reached →
        cfg.stale (safeHead reached.2) start = false :=
      hnever (start, p) List.mem_cons_self
    have hrest : c.NeverForwards cfg (c.cursorAfter cfg start p) rest :=
      fun pass hpass => hnever pass (List.mem_cons_of_mem _ hpass)
    have hlast : c.lastCursor cfg start (p :: rest) =
        c.lastCursor cfg (c.cursorAfter cfg start p) rest := rfl
    by_cases hsame : c.cursorAfter cfg start p = start
    · -- the poll left the cursor and adds no range
      have hnone : c.advance cfg (start, p) = none := by simp only [Scanned.advance, if_pos hsame]
      simp only [Scanned.passes, List.filterMap_cons, hnone]
      rw [hlast]
      rw [hsame] at hrest ⊢
      exact ih start hrest
    · obtain ⟨range, hscanned, hafter⟩ := (cursorAfter_cases c hstale).resolve_left hsame
      obtain ⟨hle, hfirst⟩ := scanned_spec hcap hstale hscanned
      have hsome : c.advance cfg (start, p) = some range := by
        simp only [Scanned.advance, if_neg hsame, hscanned]
      simp only [Scanned.passes, List.filterMap_cons, hsome]
      rw [hlast]
      rw [hafter] at hrest ⊢
      refine .inr ?_
      rcases ih (some range.2) hrest with ⟨hkept, hnil⟩ | ⟨first, last, hend, htiles, hjoin⟩
      · rw [hnil]
        exact ⟨range.1, range.2, hkept, Tiles.single hle, hfirst⟩
      · obtain rfl := hjoin range.2 rfl
        exact ⟨range.1, last, hend, .cons hle htiles, hfirst⟩

end

/-- For every configuration, every start of the cursor and every sequence of
polls of one chain, whatever heads they see and whichever queries fail. -/
theorem scanning_is_gapless (c : Scanned A σ) (config : Config) (start : Option Int)
    (polls : List (Poll A σ)) (hnever : c.NeverForwards config.new start polls) :
    c.Gapless config.new start polls := by
  have hcap := maxBlocksPerCycle_new config
  have hcases := tiles_of_polls hcap polls start hnever
  constructor
  · intro last hlast
    rcases hcases with ⟨hkept, hnil⟩ | ⟨first, end', hend, htiles, hjoin⟩
    · rw [hnil]
      refine ⟨last + 1, .nil _, ?_⟩
      rintro cursor rfl
      obtain rfl := Option.some.inj (hkept.symm.trans hlast)
      rfl
    · obtain rfl := Option.some.inj (hend.symm.trans hlast)
      exact ⟨first, htiles, hjoin⟩
  · rcases hcases with ⟨-, hnil⟩ | ⟨first, end', -, htiles, -⟩
    · rw [hnil]
      exact List.Pairwise.nil
    · exact htiles.pairwise
  · intro hcold
    rcases hcases with ⟨-, hnil⟩ | ⟨first, end', hend, -, -⟩
    · exact hnil
    · rw [hend] at hcold
      cases hcold
  · intro pass hpass
    exact pollSound hcap (hnever pass hpass)

/-- A staleness setting of zero turns the fast-forward off. -/
theorem neverForwards_of_disabled {c : Scanned A σ} {config : Config}
    (h : config.maxCursorStaleness ≤ 0) (start : Option Int) (polls : List (Poll A σ)) :
    c.NeverForwards config.new start polls := by
  intro pass _ reached _
  have hoff : ¬ 0 < config.new.maxCursorStaleness := by
    simp only [Config.new]
    omega
  simp only [Config.stale, decide_eq_false hoff, Bool.false_and]

namespace Sample

/-- A poll without open invoices at a node that has reached `currentBlock`. -/
def poll (currentBlock : ℕ) : Poll String Unit where
  client := some ⟨some currentBlock, fun _ => none, fun _ => some []⟩
  sums := fun _ => none
  chainTokens := []
  txs := []
  state := ()

def scanned : Scanned String Unit := ⟨⟨id, id⟩, "ETH", false, fun _ state => (true, state)⟩

end Sample

open Evm.Sample

/-- The head goes back by two blocks and then on by 22. -/
theorem scanning_is_gapless_sample :
    scanned.Gapless (Config.new ⟨500, 100, 0⟩) none [poll 10, poll 8, poll 30] :=
  scanning_is_gapless scanned ⟨500, 100, 0⟩ none [poll 10, poll 8, poll 30]
    (neverForwards_of_disabled le_rfl none _)

example : (scanned.passes (Config.new ⟨500, 100, 0⟩) none [poll 10, poll 8, poll 30]).filterMap
    (scanned.advance (Config.new ⟨500, 100, 0⟩)) = [(0, 7), (8, 27)] := by
  decide

end Evm

end CryptoLink
