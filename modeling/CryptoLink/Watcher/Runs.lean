import CryptoLink.Guarantees.Cycles
import CryptoLink.Guarantees.Duplicates
import CryptoLink.Watcher.Readings
import Mathlib.Data.List.Dedup

/-!
# The watcher from start to end

What the process remembers between two cycles, one cycle over all chains, and
runs of cycles and restarts with anything happening to the database in between.
-/

namespace CryptoLink

/-- A chain, and whether it is the test network. -/
abbrev ChainKey := Blockchain × Bool

/-- The database and what the process remembers. -/
structure WatcherState where
  world : World
  lastScannedBlock : ChainKey → Option Int
  lastBTCBalance : String → Option Int

/-- What the nodes answer during one cycle. -/
structure Nodes (A : Type) where
  evm : ChainKey → Option (Evm.Client A)
  tron : Bool → Option Tron.Client
  bitcoin : Bool → Btc.Provider

/-- One cycle: what its two queries are answered from, the order the chains are
taken in, the nodes, and what is asked while a detection is processed. -/
structure Cycle (A : Type) where
  listing : Env
  sums : Env
  order : List ChainKey
  nodes : Nodes A
  answers : DetectedTransfer → ℕ → Env

inductive WatcherEvent (A : Type) where
  | cycle (c : Cycle A)
  | restart
  | other (w : World)

def Transaction.chainKey (tx : Transaction) : ChainKey := (tx.currency.blockchain, tx.isTest)

/-- The chains of the listed invoices, each once; a map is ranged over in any
order. -/
def chainKeys (order : List ChainKey) (txs : List Transaction) : List ChainKey :=
  (txs.map Transaction.chainKey ++ order).dedup.filter (txs.map Transaction.chainKey).contains

/-- A failed query for the sums counts as no sums. -/
def sumsRead (env : Env) (w : World) : Int → Option Int :=
  if env.fate = .done then confirmedFillSums w else fun _ => none

namespace Service

variable {A : Type} [DecidableEq A] (s : Service) (fmt : AddressFormat A) (cfg : Evm.Config)

def evmScan (answers : DetectedTransfer → ℕ → Env) (k : ChainKey) : Evm.Scanned A World :=
  ⟨fmt, k.1, k.2, s.onDetectedAlone answers⟩

/-- `pollChainTransactions` -/
def pollChainTransactions (c : Cycle A) (sums : Int → Option Int) (txs : List Transaction)
    (x : WatcherState) (k : ChainKey) : WatcherState :=
  let chainTxs := chainTransactions k.1 k.2 txs
  match poller k.1 with
  | some .evm =>
      let polled := (s.evmScan fmt c.answers k).pollEVMTransactions cfg (c.nodes.evm k) sums
        (s.currencies.listBlockchainCurrencies k.1) chainTxs (x.lastScannedBlock k) x.world
      { x with
        world := polled.state
        lastScannedBlock := fun key => if key = k then polled.cursor else x.lastScannedBlock key }
  | some .btc =>
      let polled := Btc.pollBTCTransactions k.2 (c.nodes.bitcoin k.2) (s.onDetectedAlone c.answers)
        chainTxs x.lastBTCBalance x.world
      { x with world := polled.state, lastBTCBalance := polled.lastBTCBalance }
  | some .tron =>
      { x with
        world := (Tron.pollTRONTransactions k.2 (c.nodes.tron k.2) (s.onDetectedAlone c.answers)
          sums chainTxs x.world).state }
  | none => x

/-- `PollPendingTransactions`; nothing is polled, and no cursor moves, while no
invoice is pending. -/
def pollPendingTransactions (c : Cycle A) (x : WatcherState) : WatcherState :=
  match s.listPending c.listing x.world with
  | .error _ => x
  | .ok [] => x
  | .ok txs => (chainKeys c.order txs).foldl
      (s.pollChainTransactions fmt cfg c (sumsRead c.sums x.world) txs) x

def watcherStep (x : WatcherState) : WatcherEvent A → WatcherState
  | .cycle c => s.pollPendingTransactions fmt cfg c x
  | .restart => ⟨x.world, fun _ => none, fun _ => none⟩
  | .other w => { x with world := w }

variable {s fmt cfg}

/-- The transfers a cycle from `x` can hand on of one chain. -/
inductive Hands (s : Service) (fmt : AddressFormat A) (cfg : Evm.Config) (c : Cycle A)
    (sums : Int → Option Int) (txs : List Transaction) (x : WatcherState) (k : ChainKey) :
    DetectedTransfer → Prop
  | evm {client : Evm.Client A} {currentBlock : ℕ} {d : DetectedTransfer}
      (chain : poller k.1 = some .evm) (node : c.nodes.evm k = some client)
      (head : client.blockNumber = some currentBlock)
      (detects : (s.evmScan fmt c.answers k).Detects client sums (chainTransactions k.1 k.2 txs)
        (cfg.fromBlock (Evm.safeHead currentBlock) (x.lastScannedBlock k))
        (cfg.toBlock (Evm.safeHead currentBlock)
          (cfg.fromBlock (Evm.safeHead currentBlock) (x.lastScannedBlock k))) d) :
      Hands s fmt cfg c sums txs x k d
  | tron {client : Tron.Client} {d : DetectedTransfer} (chain : poller k.1 = some .tron)
      (node : c.nodes.tron k.2 = some client)
      (detects : Tron.Detects client k.2 sums (chainTransactions k.1 k.2 txs) d) :
      Hands s fmt cfg c sums txs x k d
  | btc {d : DetectedTransfer} (chain : poller k.1 = some .btc)
      (detects : Btc.Detects (c.nodes.bitcoin k.2) k.2 x.lastBTCBalance
        (chainTransactions k.1 k.2 txs) d) :
      Hands s fmt cfg c sums txs x k d

/-- What the process remembers of the chain `k` is the same. -/
def RemembersSame (k : ChainKey) (x y : WatcherState) : Prop :=
  y.lastScannedBlock k = x.lastScannedBlock k ∧
    (poller k.1 = some .btc → ∀ addr,
      y.lastBTCBalance (Btc.cacheKey addr k.2) = x.lastBTCBalance (Btc.cacheKey addr k.2))

theorem Hands.of_same {c : Cycle A} {sums : Int → Option Int} {txs : List Transaction}
    {x y : WatcherState} {k : ChainKey} {d : DetectedTransfer} (hsame : RemembersSame k x y)
    (h : Hands s fmt cfg c sums txs y k d) : Hands s fmt cfg c sums txs x k d := by
  cases h with
  | evm chain node head detects =>
    rw [hsame.1] at detects
    exact .evm chain node head detects
  | tron chain node detects => exact .tron chain node detects
  | btc chain detects => exact .btc chain (detects.congr (hsame.2 chain))

/-- Bitcoin is the only chain watched by balance. -/
theorem poller_btc {bc : Blockchain} (h : poller bc = some .btc) : bc = "BTC" := by
  unfold poller at h
  split at h
  · cases h
  · split at h
    · assumption
    · split at h
      · cases h
      · cases h

/-- What every transfer handed on keeps, the poll of a chain keeps; nothing is
forgotten of the other chains. -/
theorem keeps_pollChainTransactions {c : Cycle A} {sums : Int → Option Int}
    {txs : List Transaction} {x : WatcherState} {k : ChainKey} {J : World → Prop}
    (hJ : ∀ d w, Hands s fmt cfg c sums txs x k d → J w → J (s.onDetectedAlone c.answers d w).2)
    (hx : J x.world) :
    J (s.pollChainTransactions fmt cfg c sums txs x k).world ∧
      ∀ k', k' ≠ k → RemembersSame k' x (s.pollChainTransactions fmt cfg c sums txs x k) := by
  unfold pollChainTransactions
  cases hpoller : poller k.1 with
  | none => exact ⟨hx, fun _ _ => ⟨rfl, fun _ _ => rfl⟩⟩
  | some p =>
    cases p with
    | evm =>
      refine ⟨?_, fun k' hk' => ⟨if_neg hk', fun _ _ => rfl⟩⟩
      refine (s.evmScan fmt c.answers k).keeps_pollEVMTransactions ?_ hx
      intro node currentBlock hnode hhead d w hd hw
      exact hJ d w (.evm hpoller hnode hhead hd) hw
    | btc =>
      refine ⟨?_, fun k' hk' => ⟨rfl, fun hbtc addr => ?_⟩⟩
      · exact Btc.keeps_pollBTCTransactions (fun d w hd hw => hJ d w (.btc hpoller hd) hw) hx
      · have hchain : k'.1 = k.1 := (poller_btc hbtc).trans (poller_btc hpoller).symm
        have hnetwork : k'.2 ≠ k.2 := fun heq => hk' (Prod.ext hchain heq)
        exact Btc.lastBTCBalance_pollBTCTransactions fun other => Btc.cacheKey_ne hnetwork
    | tron =>
      refine ⟨?_, fun _ _ => ⟨rfl, fun _ _ => rfl⟩⟩
      refine Tron.keeps_pollTRONTransactions ?_ hx
      intro node hnode d w hd hw
      exact hJ d w (.tron hpoller hnode hd) hw

theorem nodup_chainKeys (order : List ChainKey) (txs : List Transaction) :
    (chainKeys order txs).Nodup :=
  (List.nodup_dedup _).filter _

/-- What every transfer of a cycle keeps, the cycle keeps. A chain is polled
once, so from what was remembered of it at the start. -/
theorem keeps_pollPendingTransactions {c : Cycle A} {x : WatcherState} {J : World → Prop}
    (hJ : ∀ txs, s.listPending c.listing x.world = .ok txs → ∀ k d w,
      Hands s fmt cfg c (sumsRead c.sums x.world) txs x k d → J w →
        J (s.onDetectedAlone c.answers d w).2) (hx : J x.world) :
    J (s.pollPendingTransactions fmt cfg c x).world := by
  unfold pollPendingTransactions
  cases hlist : s.listPending c.listing x.world with
  | error e => exact hx
  | ok txs =>
    cases txs with
    | nil => exact hx
    | cons t rest =>
      have hfold : ∀ (ks : List ChainKey) (y : WatcherState), ks.Nodup →
          (∀ k ∈ ks, RemembersSame k x y) → J y.world →
          J (ks.foldl (s.pollChainTransactions fmt cfg c (sumsRead c.sums x.world) (t :: rest))
            y).world := by
        intro ks
        induction ks with
        | nil => exact fun _ _ _ hy => hy
        | cons k ks ih =>
          intro y hnodup hsame hy
          obtain ⟨hnot, hrest⟩ := List.nodup_cons.mp hnodup
          have hhands : ∀ d w, Hands s fmt cfg c (sumsRead c.sums x.world) (t :: rest) y k d →
              J w → J (s.onDetectedAlone c.answers d w).2 :=
            fun d w hd hw => hJ _ hlist k d w (hd.of_same (hsame k List.mem_cons_self)) hw
          obtain ⟨hworld, hothers⟩ := keeps_pollChainTransactions hhands hy
          refine ih _ hrest ?_ hworld
          intro k' hk'
          have hne : k' ≠ k := by
            rintro rfl
            exact hnot hk'
          obtain ⟨hcursor, hbalances⟩ := hsame k' (List.mem_cons_of_mem _ hk')
          exact ⟨(hothers k' hne).1.trans hcursor,
            fun hbtc addr => ((hothers k' hne).2 hbtc addr).trans (hbalances hbtc addr)⟩
      exact hfold _ x (nodup_chainKeys _ _) (fun _ _ => ⟨rfl, fun _ _ => rfl⟩) hx

end Service

end CryptoLink
