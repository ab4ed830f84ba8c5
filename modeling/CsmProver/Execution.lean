import CsmProver.Async.Pool
import CsmProver.Types
import Mathlib.Data.List.Sort

namespace CsmProver

/-!
# Sending transactions

`Execution` prepares one transaction in several requests, reads the nonce in one
of them and broadcasts in a later one.  All tasks of the daemon share the signer
and the fee history kept in memory; no function waits until another one has
sent.

What a request answers is data of the call, one record for each attempt.  The
log, the attempts and the fetched fees are ghosts that nothing reads.
-/

open Async

/-! ## Transactions -/

/-- What a contract method makes of its payload. -/
structure TransactionRequest where
  toAddress : Nat
  data : String
  deriving Repr, DecidableEq

structure PriorityFeeParams where
  maxFeePerGas : Int
  maxPriorityFeePerGas : Int
  deriving Repr, DecidableEq

/-- A transaction as it is emulated, with the gas limit found there. -/
structure PreparedTransaction where
  request : TransactionRequest
  fees : PriorityFeeParams
  gasLimit : Nat
  deriving Repr, DecidableEq

/-- A transaction as it is signed. -/
structure Transaction extends PreparedTransaction where
  nonce : Nat
  deriving Repr, DecidableEq

/-- A populated transaction and the place of its `populateTransaction` call in the log. -/
structure PopulatedTransaction where
  moment : Nat
  transaction : Transaction
  deriving Repr, DecidableEq

inductive TransactionEvent where
  | populated (transaction : Transaction)
  | sent (populated : PopulatedTransaction)
  | accepted (populated : PopulatedTransaction)
  deriving Repr, DecidableEq

/-- What one attempt has found out and done so far. -/
structure Attempt where
  /-- The emulated call has resolved. -/
  called : Bool
  estimatedGas : Option Nat
  /-- The cache and the answered base fee that the fees are made of. -/
  feesFrom : Option (List Nat × Option Nat)
  /-- The recommended fee and the current one. -/
  fees : Option (Nat × Nat)
  sendingConfirmed : Option Bool
  broadcasts : List Transaction
  minedStatus : Option Nat
  deriving Repr, DecidableEq

/-- An attempt that has just begun. -/
def Attempt.fresh : Attempt where
  called := false
  estimatedGas := none
  feesFrom := none
  fees := none
  sendingConfirmed := none
  broadcasts := []
  minedStatus := none

/-! ## State -/

/--
The pending transaction count of the signer's account and the fields of the service.
The attempts are those of one call, the latest first.
-/
structure ExecutionWorld where
  transactionCount : Nat
  gasFeeHistoryCache : List Nat
  lastFeeHistoryBlockNumber : Nat
  log : List TransactionEvent
  attempts : List Attempt
  /-- The fees each update of the cache has put into it, in order. -/
  fetched : List (List Nat)
  deriving Repr, DecidableEq

namespace ExecutionWorld

/-- A process that has just started, on an account with the given count. -/
def starting (transactionCount : Nat) : ExecutionWorld where
  transactionCount := transactionCount
  gasFeeHistoryCache := []
  lastFeeHistoryBlockNumber := 0
  log := []
  attempts := []
  fetched := []

def record (world : ExecutionWorld) (event : TransactionEvent) : ExecutionWorld :=
  { world with log := world.log ++ [event] }

/-- Note something about the attempt under way. -/
def noteAttempt (note : Attempt → Attempt) (world : ExecutionWorld) : ExecutionWorld :=
  { world with attempts := world.attempts.modifyHead note }

def beginAttempt (world : ExecutionWorld) : ExecutionWorld :=
  { world with attempts := .fresh :: world.attempts }

/--
The count after a transaction was accepted.  Under a nonce that is counted
already it replaces the transaction that was there.
-/
def countAccepted (transactionCount : Nat) (transaction : Transaction) : Nat :=
  if transaction.nonce = transactionCount then
    transactionCount + 1
  else
    transactionCount

/-- The network takes a transaction: it is pending from here on. -/
def accept (populated : PopulatedTransaction) (world : ExecutionWorld) : ExecutionWorld :=
  { world with
    transactionCount :=
      countAccepted world.transactionCount populated.transaction }.record
    (.accepted populated)

end ExecutionWorld

/-! ## Configuration and answers -/

/-- Numbers for which the validation of the environment has no minimum are integers. -/
structure ExecutionConfig extends Config where
  txMinGasPriorityFee : Int
  txMaxGasPriorityFee : Int
  txGasFeeHistoryDays : Int
  txGasFeeHistoryPercentile : { percentile : Int // percentile ≤ 100 }
  /-- In wei; zero switches the cap off, and a fraction of a wei is not parsed. -/
  txMaxBaseFee : Option Nat
  txGasLimit : Int
  txGasLimitBufferPercent : Nat
  txHighGasFeeMaxRetries : Nat
  /-- `MAX_BLOCKCOUNT` of the provider's package. -/
  maxBlockcount : { count : Nat // 0 < count }
  deriving Repr, DecidableEq

/-- The defaults of the environment. -/
def ExecutionConfig.defaults (config : Config) : ExecutionConfig where
  toConfig := config
  txMinGasPriorityFee := 50000000
  txMaxGasPriorityFee := 10000000000
  txGasFeeHistoryDays := 1
  txGasFeeHistoryPercentile := ⟨50, by decide⟩
  txMaxBaseFee := some (50 * 1000000000)
  txGasLimit := 3000000
  txGasLimitBufferPercent := 20
  txHighGasFeeMaxRetries := 13
  maxBlockcount := ⟨1024, by decide⟩

/-- The answers to the requests of one attempt. -/
structure ExecutionAnswers where
  pendingBaseFee : Nat
  reward : List (List Nat)
  request : TransactionRequest
  estimatedGas : Nat
  currentBaseFee : Option Nat
  latestBlockNumber : Nat
  /-- The base fees of a number of blocks up to a newest one, and of the block after it. -/
  baseFeeHistory : Nat → Nat → List Nat
  sendingConfirmed : Bool
  hash : String
  receiptStatus : Nat

/-! ## Errors -/

namespace Execution

def gasLimitExceeded (estimatedGas bufferPct gasLimit : Nat) (cap : Int) : String :=
  "Estimated gas " ++ toString estimatedGas ++ " (+" ++ toString bufferPct ++ "% = " ++
    toString gasLimit ++ ") exceeds TX_GAS_LIMIT cap (" ++ toString cap ++ ")."

def noSigner : String :=
  "No specified signer. Only emulated calls are available"

def dryRunMode : String :=
  "Dry run mode is enabled. Transaction is prepared, but not sent"

def highGasFee : String :=
  "Transaction is not sent due to high gas fee"

def userCancellation : String :=
  "Transaction is not sent due to user cancellation"

def revertedOnChain (status : Nat) (hash : String) : String :=
  "Transaction reverted on-chain (status " ++ toString status ++ "). Hash: " ++ hash

/-! ## Fees -/

/-- A read at an index; outside of the array the value is missing. -/
def readAt (arr : List Nat) (index : Int) : Option Nat :=
  if index < 0 then none else arr[index.toNat]?

/--
The percentile of sorted fees; between two of them it is the middle.  The index is
exact, counted in hundredths, where the source computes `(p / 100) * (length - 1)` in
doubles.  Outside of the list the source fails on a missing value.
-/
def percentile (sorted : List Nat) (p : Int) : Option Nat :=
  let index := p * ((sorted.length : Int) - 1)
  if index % 100 = 0 then
    readAt sorted (index / 100)
  else do
    let lower ← readAt sorted (index / 100)
    let upper ← readAt sorted (index / 100 + 1)
    return (lower + upper) / 2

/-- The in-memory sort that `percentile` makes of its argument. -/
def sortGasFees (world : ExecutionWorld) : ExecutionWorld :=
  { world with
    gasFeeHistoryCache := world.gasFeeHistoryCache.insertionSort (· ≤ ·) }

/-- The new fees push as many of the first ones out of the cache. -/
def cacheGasFees (newGasFees : List Nat) (latestBlockNumber : Nat)
    (world : ExecutionWorld) : ExecutionWorld :=
  { world with
    gasFeeHistoryCache := world.gasFeeHistoryCache.drop newGasFees.length ++ newGasFees
    lastFeeHistoryBlockNumber := latestBlockNumber
    fetched := world.fetched ++ [newGasFees] }

section Attempt

variable (config : ExecutionConfig) (answers : ExecutionAnswers)

/-- The base fee is doubled as an integer; the source takes it through `Number`, below 2^53. -/
def calcPriorityFee : Async ExecutionWorld PriorityFeeParams := do
  let baseFeePerGas ← request answers.pendingBaseFee
  let reward ← request answers.reward
  let paid := (reward.getLast?.bind List.getLast?).getD 0
  let maxPriorityFeePerGas :=
    min (max (paid : Int) config.txMinGasPriorityFee) config.txMaxGasPriorityFee
  return {
    maxFeePerGas := baseFeePerGas * 2 + maxPriorityFeePerGas
    maxPriorityFeePerGas := maxPriorityFeePerGas
  }

/--
Fetch the fees of a number of blocks, the newest first.  Each answer ends with
the fee of the block after its newest, which is left out; a request takes one
block at least, so the number of blocks is fuel enough.
-/
def fetchGasFees : Nat → Nat → Nat → List Nat → Async ExecutionWorld (List Nat)
  | 0, _, _, newGasFees => return newGasFees
  | fuel + 1, totalBlockCountToFetch, latestBlockToRequest, newGasFees => do
      if totalBlockCountToFetch = 0 then
        return newGasFees
      else
        let blockCountPerRequest := min totalBlockCountToFetch config.maxBlockcount
        let stats ←
          request (answers.baseFeeHistory blockCountPerRequest latestBlockToRequest)
        fetchGasFees fuel (totalBlockCountToFetch - blockCountPerRequest)
          (latestBlockToRequest - (blockCountPerRequest - 1))
          (stats.dropLast ++ newGasFees)

def maxBlocksPerHour : Nat :=
  60 * 60 / 12

def updateGasFeeHistoryCache : Async ExecutionWorld Unit := do
  let maxFeeHistoryCacheSize := config.txGasFeeHistoryDays * (24 * maxBlocksPerHour)
  let latestBlockNumber ← request answers.latestBlockNumber
  let world ← read
  let feeHistoryCacheBlocksDelay := latestBlockNumber - world.lastFeeHistoryBlockNumber
  if feeHistoryCacheBlocksDelay < maxBlocksPerHour then
    return
  else
    let totalBlockCountToFetch :=
      (min (feeHistoryCacheBlocksDelay : Int) maxFeeHistoryCacheSize).toNat
    let newGasFees ←
      fetchGasFees config answers totalBlockCountToFetch totalBlockCountToFetch
        latestBlockNumber []
    modify (cacheGasFees newGasFees latestBlockNumber)

/-- The recommended fee and the current one. -/
def calcFeePerGas : Async ExecutionWorld (Nat × Nat) := do
  let currentFee ← request answers.currentBaseFee
  call (updateGasFeeHistoryCache config answers)
  modify sortGasFees
  let world ← read
  modify (ExecutionWorld.noteAttempt fun attempt =>
    { attempt with feesFrom := some (world.gasFeeHistoryCache, currentFee) })
  match percentile world.gasFeeHistoryCache config.txGasFeeHistoryPercentile with
  | none => .fail .rejected
  | some recommended => return (recommended, currentFee.getD 0)

def isFeePerGasAcceptable : Async ExecutionWorld Bool := do
  let (recommended, current) ← call (calcFeePerGas config answers)
  modify (ExecutionWorld.noteAttempt fun attempt =>
    { attempt with fees := some (recommended, current) })
  match config.txMaxBaseFee with
  | none => .fail .rejected
  | some cap =>
      if 0 < cap ∧ cap < current then
        return false
      else
        return decide (current ≤ recommended)

/-! ## One transaction -/

/-- The emulated call and the gas estimate, which fail as the provider does. -/
def emulate (request : TransactionRequest) (fees : PriorityFeeParams) :
    Async ExecutionWorld PreparedTransaction := do
  settle
  modify (ExecutionWorld.noteAttempt fun attempt => { attempt with called := true })
  let estimatedGas ← Async.request answers.estimatedGas
  modify (ExecutionWorld.noteAttempt fun attempt =>
    { attempt with estimatedGas := some estimatedGas })
  let bufferPct := config.txGasLimitBufferPercent
  let gasLimit := estimatedGas * (100 + bufferPct) / 100
  if gasLimit > config.txGasLimit then
    raise (gasLimitExceeded estimatedGas bufferPct gasLimit config.txGasLimit)
  else
    return { request := request, fees := fees, gasLimit := gasLimit }

/-- The nonce is the pending transaction count at the moment of the call. -/
def populateTransaction (prepared : PreparedTransaction) :
    Async ExecutionWorld PopulatedTransaction := do
  let world ← read
  let transaction : Transaction :=
    { toPreparedTransaction := prepared, nonce := world.transactionCount }
  modify fun current => current.record (.populated transaction)
  settle
  return { moment := world.log.length, transaction := transaction }

def isCLI : Bool :=
  config.workingMode = .cli

/-- The reasons to stop before a populated transaction is signed. -/
def confirmSending (isFeePerGasAcceptable : Bool) : Async ExecutionWorld Unit := do
  if config.dryRun then
    raise dryRunMode
  else if isCLI config then
    let sendingConfirmed ← request answers.sendingConfirmed
    modify (ExecutionWorld.noteAttempt fun attempt =>
      { attempt with sendingConfirmed := some sendingConfirmed })
    if sendingConfirmed then
      return
    else
      raise userCancellation
  else if isFeePerGasAcceptable then
    return
  else
    raise highGasFee

/-- The provider may refuse a transaction, or accept it and lose its answer. -/
def sendTransaction (populated : PopulatedTransaction) : Async ExecutionWorld Unit := do
  modify fun world =>
    (world.record (.sent populated)).noteAttempt fun attempt =>
      { attempt with broadcasts := attempt.broadcasts ++ [populated.transaction] }
  settle
  modify (ExecutionWorld.accept populated)
  settle

/-- Sign, send, and wait until the transaction is mined. -/
def broadcast (populated : PopulatedTransaction) : Async ExecutionWorld Unit := do
  settle
  sendTransaction populated
  settle
  modify (ExecutionWorld.noteAttempt fun attempt =>
    { attempt with minedStatus := some answers.receiptStatus })
  if answers.receiptStatus = 1 then
    return
  else
    raise (revertedOnChain answers.receiptStatus answers.hash)

def _execute : Async ExecutionWorld Unit := do
  modify ExecutionWorld.beginAttempt
  let priorityFeeParams ← call (calcPriorityFee config answers)
  let txBase ← request answers.request
  let tx ← emulate config answers txBase priorityFeeParams
  if config.txSignerPrivateKey = none then
    raise noSigner
  else
    let populatedTx ← populateTransaction tx
    let isFeePerGasAcceptable ← call (isFeePerGasAcceptable config answers)
    confirmSending config answers isFeePerGasAcceptable
    broadcast answers populatedTx

end Attempt

/-! ## Retries -/

/-- One call of `execute`: what its attempts are answered. -/
abbrev ExecuteCall := Nat → ExecutionAnswers

/-- Without a signer and in a dry run the call ends quietly. -/
def endsQuietly (reason : Abort) : Prop :=
  reason = .thrown noSigner ∨ reason = .thrown dryRunMode

instance (reason : Abort) : Decidable (endsQuietly reason) :=
  inferInstanceAs (Decidable (_ ∨ _))

/-- How a call goes on after an attempt, and what it does about a high fee. -/
def concludeAttempt (onHighGasFee : Async ExecutionWorld Unit) :
    Except Abort Unit → Async ExecutionWorld Unit
  | .ok () => return
  | .error reason =>
      if endsQuietly reason then
        return
      else if reason = .thrown highGasFee then
        onHighGasFee
      else
        .fail reason

def executeCLI (config : ExecutionConfig) (executeCall : ExecuteCall) :
    Async ExecutionWorld Unit := do
  let outcome ← callCatching (_execute config (executeCall 0))
  concludeAttempt (raise highGasFee) outcome

/-- The second number counts the retries that are left. -/
def executeDaemon (config : ExecutionConfig) (executeCall : ExecuteCall) :
    Nat → Nat → Async ExecutionWorld Unit
  | highGasAttempts, 0 => do
      let outcome ← callCatching (_execute config (executeCall highGasAttempts))
      concludeAttempt (raise highGasFee) outcome
  | highGasAttempts, left + 1 => do
      let outcome ← callCatching (_execute config (executeCall highGasAttempts))
      concludeAttempt
        (do
          tick
          executeDaemon config executeCall (highGasAttempts + 1) left)
        outcome

def execute (config : ExecutionConfig) (executeCall : ExecuteCall) :
    Async ExecutionWorld Unit :=
  if isCLI config then
    call (executeCLI config executeCall)
  else
    call (executeDaemon config executeCall 0 config.txHighGasFeeMaxRetries)

/--
A task of the daemon as far as it sends: its calls one after the other.  A call
that fails ends a round of the task, and its next call is of a later round.
-/
def sendingTask (config : ExecutionConfig) (calls : List ExecuteCall) :
    Async ExecutionWorld Unit :=
  forEach calls fun executeCall => do
    let _ ← callCatching (execute config executeCall)

end Execution

end CsmProver
