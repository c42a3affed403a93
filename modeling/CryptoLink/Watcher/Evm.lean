import CryptoLink.Watcher.Scanning

/-!
# EVM chains

One poll of a chain: the range of blocks from its cursor on, the slots of the
invoices open on it, the three scans, and where the cursor goes. Go's maps are
lists of pairs here, in whatever order they are ranged over.
-/

namespace CryptoLink

/-- `common.HexToAddress` and `Address.Hex` of go-ethereum. -/
structure AddressFormat (A : Type) where
  hexToAddress : String → A
  hex : A → String

namespace Evm

section Slots

variable {A β : Type} [DecidableEq A]

/-- The entry of `a`, changed by `f`; an absent one starts from `empty`. -/
def upsert (empty : β) (f : β → β) (a : A) : List (A × β) → List (A × β)
  | [] => [(a, f empty)]
  | (b, x) :: rest => if b = a then (b, f x) :: rest else (b, x) :: upsert empty f a rest

def delete (a : A) (m : List (A × β)) : List (A × β) := m.filter fun p => p.1 ≠ a

def assign (a : A) (y : β) (m : List (A × β)) : List (A × β) :=
  m.map fun p => if p.1 = a then (a, y) else p

end Slots

abbrev Slots (A : Type) := List (A × List PendingInfo)

variable {A σ : Type} [DecidableEq A]

/-- The lookup maps of one cycle. -/
structure Watched (A : Type) where
  nativeAddressesContract : Slots A
  nativeAddressesEOA : Slots A
  tokenAddresses : List (A × Slots A)
  collectorContracts : List A

/-- A wallet is never found, so only an address on the transaction itself is
watched. -/
def getRecipientAddress (tx : Transaction) : Option String :=
  if tx.recipientAddress = "" then none else some tx.recipientAddress

def addSlot (a : A) (info : PendingInfo) (m : Slots A) : Slots A :=
  upsert [] (fun pending => pending ++ [info]) a m

def register (fmt : AddressFormat A) (sums : Int → Option Int) (w : Watched A)
    (tx : Transaction) : Watched A :=
  match getRecipientAddress tx with
  | none => w
  | some addr =>
    let ethAddr := fmt.hexToAddress addr
    let info : PendingInfo := ⟨tx, tx.recipientWalletID, computeRemaining sums tx⟩
    let w := if info.walletID.isNone && !w.collectorContracts.contains ethAddr then
        { w with collectorContracts := w.collectorContracts ++ [ethAddr] }
      else w
    match tx.currency.type with
    | .coin =>
        if info.walletID.isNone then
          { w with nativeAddressesContract := addSlot ethAddr info w.nativeAddressesContract }
        else { w with nativeAddressesEOA := addSlot ethAddr info w.nativeAddressesEOA }
    | .token =>
        if tx.currency.tokenContractAddress ≠ "" then
          let contract := fmt.hexToAddress (tx.currency.chooseContractAddress tx.isTest)
          { w with tokenAddresses := upsert [] (addSlot ethAddr info) contract w.tokenAddresses }
        else w

/-- An empty slot at a collector for one currency of the chain, if it is a
token. -/
def broadenToken (fmt : AddressFormat A) (isTest : Bool) (col : A) (w : Watched A)
    (cur : CryptoCurrency) : Watched A :=
  if cur.type ≠ .token ∨ cur.chooseContractAddress isTest = "" then w
  else
    { w with
      tokenAddresses := upsert [] (upsert [] id col)
        (fmt.hexToAddress (cur.chooseContractAddress isTest)) w.tokenAddresses }

/-- Empty slots at a collector for the coin and every token of the chain. -/
def broadenCollector (fmt : AddressFormat A) (isTest : Bool) (chainTokens : List CryptoCurrency)
    (w : Watched A) (col : A) : Watched A :=
  chainTokens.foldl (broadenToken fmt isTest col)
    { w with nativeAddressesContract := upsert [] id col w.nativeAddressesContract }

def broaden (fmt : AddressFormat A) (isTest : Bool) (chainTokens : List CryptoCurrency)
    (w : Watched A) : Watched A :=
  w.collectorContracts.foldl (broadenCollector fmt isTest chainTokens) w

def watch (fmt : AddressFormat A) (isTest : Bool) (sums : Int → Option Int)
    (chainTokens : List CryptoCurrency) (txs : List Transaction) : Watched A :=
  broaden fmt isTest chainTokens (txs.foldl (register fmt sums) ⟨[], [], [], []⟩)

/-- An event log; the topics after the signature are addresses. -/
structure LogEntry (A : Type) where
  block : Int
  address : A
  topics : List A
  data : Int
  txHash : String
  deriving DecidableEq, Repr

/-- A top-level transaction of a block; the sender is what can be recovered. -/
structure BlockTx (A : Type) where
  recipient : Option A
  value : Int
  hash : String
  sender : Option A
  deriving DecidableEq, Repr

/-- The two queries: `Received` events of the watched contracts, or `Transfer`
events of one token to the watched recipients. -/
inductive FilterQuery (A : Type) where
  | received (fromBlock toBlock : Int) (addresses : List A)
  | transfers (fromBlock toBlock : Int) (contract : A) (recipients : List A)
  deriving DecidableEq, Repr

/-- What a node answers during one cycle; `none` is an error. -/
structure Client (A : Type) where
  blockNumber : Option ℕ
  blockByNumber : Int → Option (List (BlockTx A))
  filterLogs : FilterQuery A → Option (List (LogEntry A))

/-- What a scan over several addresses carries along. -/
structure LogScan (A σ : Type) where
  slots : Slots A
  detected : Int
  failedIDs : List Int
  state : σ

namespace LogScan

/-- The slots of one address, as a scan of their own. -/
def slotScan (x : LogScan A σ) (pending : List PendingInfo) : Scan σ :=
  ⟨pending, x.detected, x.failedIDs, x.state⟩

/-- An address without slots left is no longer watched. -/
def putBack (x : LogScan A σ) (a : A) (y : Scan σ) : LogScan A σ where
  slots := if y.pending.isEmpty then delete a x.slots else assign a y.pending x.slots
  detected := y.detected
  failedIDs := y.failedIDs
  state := y.state

/-- A transfer without an invoice of its currency: a failure is only logged. -/
def handOnUnmatched (onDetected : OnDetected σ) (d : DetectedTransfer) (x : LogScan A σ) :
    LogScan A σ :=
  let result := onDetected d x.state
  { x with
    detected := if result.1 then x.detected + 1 else x.detected
    state := result.2 }

def fail (x : LogScan A σ) : LogScan A σ :=
  { x with failedIDs := x.failedIDs ++ x.slots.flatMap fun p => p.2.map fun info => info.tx.id }

end LogScan

/-- The chain a scan runs on. -/
structure Scanned (A σ : Type) where
  fmt : AddressFormat A
  bc : Blockchain
  isTest : Bool
  onDetected : OnDetected σ

/-- One transfer to `recipient`, found in a log. `isNative` and `tokenContract`
go into the detection of an unmatched one. -/
def Scanned.logTransfer (c : Scanned A σ) (isNative : Bool) (tokenContract : String)
    (sender recipient : A) (entry : LogEntry A) (x : LogScan A σ) : LogScan A σ :=
  match x.slots.lookup recipient with
  | none => x
  | some pending =>
    if entry.data = 0 && (isNative || pending.isEmpty) then x
    else if pending.isEmpty then
      x.handOnUnmatched c.onDetected {
        txHash := entry.txHash
        senderAddress := c.fmt.hex sender
        recipientAddress := c.fmt.hex recipient
        target := .unmatched c.bc c.isTest isNative tokenContract (toString entry.data) }
    else match bestMatchByAmount pending entry.data with
      | some (bestIdx, info, true) =>
          x.putBack recipient ((x.slotScan pending).handOn c.onDetected bestIdx info
            (invoiceDetection c.isTest info entry.txHash (c.fmt.hex sender) (c.fmt.hex recipient)
              entry.data))
      | _ => x

def Scanned.nativeLog (c : Scanned A σ) (x : LogScan A σ) (entry : LogEntry A) : LogScan A σ :=
  match entry.topics with
  | sender :: _ => c.logTransfer true "" sender entry.address entry x
  | [] => x

def Scanned.tokenLog (c : Scanned A σ) (contract : A) (x : LogScan A σ) (entry : LogEntry A) :
    LogScan A σ :=
  match entry.topics with
  | sender :: recipient :: _ => c.logTransfer false (c.fmt.hex contract) sender recipient entry x
  | _ => x

/-- `maxLogsChunk` -/
def maxLogsChunk : Int := 20

/-- The ranges of blocks asked for one by one, up to and including `toBlock`. -/
def chunks (fromBlock toBlock : Int) : List (Int × Int) :=
  (List.range ((toBlock - fromBlock) / (maxLogsChunk + 1) + 1).toNat).map fun k : ℕ =>
    (fromBlock + (maxLogsChunk + 1) * k,
      min (fromBlock + (maxLogsChunk + 1) * k + maxLogsChunk) toBlock)

/-- Chunk by chunk, until one fails or no address is watched any more. The
second result is whether a query failed. -/
def scanChunks (query : Int × Int → Option (List (LogEntry A)))
    (step : LogScan A σ → LogEntry A → LogScan A σ) :
    List (Int × Int) → LogScan A σ → LogScan A σ × Bool
  | [], x => (x, false)
  | chunk :: rest, x =>
    match query chunk with
    | none => (x.fail, true)
    | some logs =>
      let y := logs.foldl step x
      if y.slots.isEmpty then (y, false) else scanChunks query step rest y

def Scanned.scanNativeTransfersByLog (c : Scanned A σ) (client : Client A)
    (fromBlock toBlock : Int) (x : LogScan A σ) : LogScan A σ × Bool :=
  scanChunks (fun chunk => client.filterLogs (.received chunk.1 chunk.2 (x.slots.map Prod.fst)))
    c.nativeLog (chunks fromBlock toBlock) x

/-- The recipients of one token; a failed query ends only this token. -/
def Scanned.scanToken (c : Scanned A σ) (client : Client A) (fromBlock toBlock : Int) (contract : A)
    (x : LogScan A σ) : LogScan A σ × Bool :=
  scanChunks (fun chunk =>
      client.filterLogs (.transfers chunk.1 chunk.2 contract (x.slots.map Prod.fst)))
    (c.tokenLog contract) (chunks fromBlock toBlock) x

def Scanned.scanTokenTransfers (c : Scanned A σ) (client : Client A) (fromBlock toBlock : Int) :
    List (A × Slots A) → Scan σ × Bool → Scan σ × Bool
  | [], x => x
  | (contract, recipients) :: rest, (x, failed) =>
    let y := c.scanToken client fromBlock toBlock contract
      ⟨recipients, x.detected, x.failedIDs, x.state⟩
    c.scanTokenTransfers client fromBlock toBlock rest
      (⟨[], y.1.detected, y.1.failedIDs, y.1.state⟩, failed || y.2)

def Scanned.blockTx (c : Scanned A σ) (x : LogScan A σ) (tx : BlockTx A) : LogScan A σ :=
  match tx.recipient with
  | none => x
  | some recipient =>
    match x.slots.lookup recipient with
    | none => x
    | some pending =>
      if pending.isEmpty || tx.value = 0 then x
      else match bestMatchByAmount pending tx.value with
        | some (bestIdx, info, true) =>
          match tx.sender with
          | none => { x with failedIDs := x.failedIDs ++ [info.tx.id] }
          | some sender =>
              x.putBack recipient ((x.slotScan pending).handOn c.onDetected bestIdx info
                (invoiceDetection c.isTest info tx.hash (c.fmt.hex sender) (c.fmt.hex recipient)
                  tx.value))
        | _ => x

/-- Block by block; one that cannot be read is passed over. -/
def Scanned.scanBlocks (c : Scanned A σ) (client : Client A) :
    List Int → LogScan A σ → LogScan A σ
  | [], x => x
  | bn :: rest, x =>
    match client.blockByNumber bn with
    | none => c.scanBlocks client rest x
    | some txs =>
      let y := txs.foldl c.blockTx x
      if y.slots.isEmpty then y else c.scanBlocks client rest y

def Scanned.scanNativeTransfers (c : Scanned A σ) (client : Client A) (fromBlock toBlock : Int)
    (x : LogScan A σ) : LogScan A σ :=
  c.scanBlocks client
    ((List.range (toBlock - fromBlock + 1).toNat).map fun k : ℕ => fromBlock + k) x

structure Config where
  blockScanDepth : Int
  maxBlocksPerCycle : Int
  maxCursorStaleness : Int
  deriving DecidableEq, Repr

/-- The defaults of `New`, where the setting is not positive. -/
def Config.new (config : Config) : Config where
  blockScanDepth := if config.blockScanDepth ≤ 0 then 50 else config.blockScanDepth
  maxBlocksPerCycle := if config.maxBlocksPerCycle ≤ 0 then 100 else config.maxBlocksPerCycle
  maxCursorStaleness := config.maxCursorStaleness

def headBlockBuffer : ℕ := 3

def safeHead (currentBlock : ℕ) : Int := (currentBlock - headBlockBuffer : ℕ)

/-- `BlockScanDepth` below the head, for a chain without a cursor. -/
def Config.lookback (cfg : Config) (head : Int) : Int := max 0 (head - cfg.blockScanDepth)

def Config.firstBlock (cfg : Config) (head : Int) : Option Int → Int
  | some last => last + 1
  | none => cfg.lookback head

/-- Whether the cursor fell behind what nodes still serve. -/
def Config.stale (cfg : Config) (head : Int) (cursor : Option Int) : Bool :=
  0 < cfg.maxCursorStaleness &&
    cfg.maxCursorStaleness < head - cfg.firstBlock head cursor &&
    cfg.firstBlock head cursor < cfg.lookback head

/-- The first block of the scan. -/
def Config.fromBlock (cfg : Config) (head : Int) (cursor : Option Int) : Int :=
  if cfg.stale head cursor then cfg.lookback head else cfg.firstBlock head cursor

/-- The cursor after a possible fast-forward. -/
def Config.forwarded (cfg : Config) (head : Int) (cursor : Option Int) : Option Int :=
  if cfg.stale head cursor then some (cfg.lookback head - 1) else cursor

def Config.toBlock (cfg : Config) (head fromBlock : Int) : Int :=
  if cfg.maxBlocksPerCycle < head - fromBlock then fromBlock + cfg.maxBlocksPerCycle else head

/-- What a poll returns, with the cursor it leaves. -/
structure Polled (σ : Type) where
  cursor : Option Int
  detected : Int
  failedIDs : List Int
  state : σ

/-- The scans over a range of blocks; the second result is whether a query for
logs failed. -/
def Scanned.scanRange (c : Scanned A σ) (client : Client A) (w : Watched A)
    (fromBlock toBlock : Int) (state : σ) : Scan σ × Bool :=
  let native := if w.nativeAddressesContract.isEmpty then (⟨[], 0, [], state⟩, false)
    else c.scanNativeTransfersByLog client fromBlock toBlock
      ⟨w.nativeAddressesContract, 0, [], state⟩
  let blocks := if w.nativeAddressesEOA.isEmpty then native.1
    else c.scanNativeTransfers client fromBlock toBlock
      { native.1 with slots := w.nativeAddressesEOA }
  c.scanTokenTransfers client fromBlock toBlock w.tokenAddresses
    (⟨[], blocks.detected, blocks.failedIDs, blocks.state⟩, native.2)

/-- `pollEVMTransactions`; no client when none can be dialled. -/
def Scanned.pollEVMTransactions (c : Scanned A σ) (cfg : Config) (client : Option (Client A))
    (sums : Int → Option Int) (chainTokens : List CryptoCurrency) (txs : List Transaction)
    (cursor : Option Int) (state : σ) : Polled σ :=
  match client with
  | none => ⟨cursor, 0, txs.map fun tx => tx.id, state⟩
  | some client =>
    match client.blockNumber with
    | none => ⟨cursor, 0, [], state⟩
    | some currentBlock =>
      let head := safeHead currentBlock
      let fromBlock := cfg.fromBlock head cursor
      let forwarded := cfg.forwarded head cursor
      if head < fromBlock then ⟨forwarded, 0, [], state⟩
      else
        let toBlock := cfg.toBlock head fromBlock
        let scanned := c.scanRange client (watch c.fmt c.isTest sums chainTokens txs) fromBlock
          toBlock state
        ⟨if scanned.2 then forwarded else some toBlock, scanned.1.detected, scanned.1.failedIDs,
          scanned.1.state⟩

end Evm

end CryptoLink
