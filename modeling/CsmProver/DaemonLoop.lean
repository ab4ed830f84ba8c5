import CsmProver.Async.Loop
import CsmProver.RootsProcessor
import CsmProver.Strikes

namespace CsmProver

/-!
# The loop of the daemon

`DaemonService.loop` starts the three tasks of the daemon without awaiting them.
Two guards keep the processing of roots apart: the field `rootProcessing`, which
the loop reads, and the flag of `SingletonTask`, which the task reads itself.
They are cleared in different continuations of one promise chain.
-/

open Async

/-! ## The state of the service -/

/-- The methods under `SingletonTask`. -/
inductive TaskMethod where
  | updateKeysIndexer
  | processNextRoot
  | processBadPerformers
  deriving Repr, DecidableEq

/-- What the walk of the daemon did, with the stack as it was at a call. -/
inductive DaemonEvent where
  | getNextCalled (rootsStack : RootsStackFields)
  | getNextSettled (outcome : Except Abort (Option RootHex))
  | processNextCalled (blockRoot : RootHex) (rootsStack : RootsStackFields)
  | processNextSettled (blockRoot : RootHex) (outcome : Except Abort Unit)

/-- The fields of `DaemonService` with the worlds its tasks act on; the trace is a ghost. -/
structure DaemonState where
  lastFinalizedHeader : Option BlockHeaderResponse
  /-- Whether the field holds a promise. -/
  rootProcessing : Bool
  /-- The flags `_<method>Running`. -/
  running : TaskMethod → Bool
  world : World
  strikes : StrikesWorld
  trace : List DaemonEvent

namespace DaemonState

/-- The service as it is constructed. -/
def initial (world : World) (strikes : StrikesWorld) : DaemonState where
  lastFinalizedHeader := none
  rootProcessing := false
  running := fun _ => false
  world := world
  strikes := strikes
  trace := []

/-- The flag of one decorated method. -/
def setRunning (method : TaskMethod) (value : Bool) (state : DaemonState) : DaemonState :=
  { state with running := Function.update state.running method value }

/-- Append one event to the trace. -/
def record (event : DaemonEvent) (state : DaemonState) : DaemonState :=
  { state with trace := state.trace ++ [event] }

/-- The promise of the root in progress, kept or dropped. -/
def setRootProcessing (value : Bool) (state : DaemonState) : DaemonState :=
  { state with rootProcessing := value }

end DaemonState

/-! ## The tasks -/

namespace DaemonService

/-- Code of the services runs on the world of the daemon. -/
def onWorld (program : Async World α) : Async DaemonState α :=
  program.zoom DaemonState.world fun world state => { state with world := world }

/-- Code of the strikes service runs on its own state. -/
def onStrikes (program : Async StrikesWorld α) : Async DaemonState α :=
  program.zoom DaemonState.strikes fun strikes state => { state with strikes := strikes }

/-- A method that is already running is skipped. -/
def singletonTask (method : TaskMethod) (originalMethod : Async DaemonState Unit) :
    Async DaemonState Unit := do
  let state ← read
  if state.running method then
    return ()
  modify (DaemonState.setRunning method true)
  onFinally originalMethod (modify (DaemonState.setRunning method false))

/-- The continuations of `TrackTask` count the task and pass its end on. -/
def trackTask (originalValue : Async DaemonState Unit) : Async DaemonState Unit :=
  onFinally (passOn (passOn originalValue)) (return ())

/--
Answers of the clients to one iteration of the loop and to the tasks it starts; the
finalized header is part of the state.
-/
structure Answers where
  consensus : Consensus
  keysapi : KeysIndexer.Keysapi
  fileReads : KeysIndexer.FileReads
  strikesReads : StrikesReads
  /-- What `KeysIndexer.getFullKeyInfoByPubKey` answers while the strikes are read. -/
  fullKeyInfoFn : FullKeyInfoByPubKeyFn
  /-- `Date.now()`. -/
  now : Int

section Tasks

variable (config : Config) (balances : Bool) (answers : Answers)
variable (finalizedHeader : BlockHeaderResponse)

/-- The decorated update of the index. -/
def updateKeysIndexer : Async DaemonState Unit :=
  singletonTask .updateKeysIndexer <| trackTask <| onWorld <| call <|
    KeysIndexer.update config answers.consensus answers.keysapi finalizedHeader

/-- The decorated round of bad performers. -/
def processBadPerformers : Async DaemonState Unit :=
  singletonTask .processBadPerformers <| trackTask <| onStrikes do
    let _ ← call <|
      handleBadPerformers config answers.consensus answers.strikesReads finalizedHeader
        answers.fullKeyInfoFn

/-- `RootsProcessor.processNext`, recorded in the trace. -/
def processNext (nextRoot : RootHex) : Async DaemonState Unit := do
  let state ← read
  modify (DaemonState.record (.processNextCalled nextRoot state.world.rootsStack))
  let outcome ← attempt <| onWorld <|
    RootsProcessor.processNext config answers.consensus balances nextRoot finalizedHeader
  modify (DaemonState.record (.processNextSettled nextRoot outcome))
  ofOutcome outcome

/-- The decorated processing of one root. -/
def processNextRoot (nextRoot : RootHex) : Async DaemonState Unit :=
  singletonTask .processNextRoot <| trackTask <| call <|
    processNext config balances answers finalizedHeader nextRoot

/-! ## The loop -/

/-- `RootsProvider.getNext` as its caller awaits it, recorded in the trace. -/
def getNext : Async (Pool DaemonState) (Option RootHex) := do
  let pool ← read
  let rootsStack := pool.shared.world.rootsStack
  Pool.onShared (modify (DaemonState.record (.getNextCalled rootsStack)))
  let outcome ← callCatching <| Pool.onShared <| onWorld <|
    RootsProvider.getNext config answers.consensus finalizedHeader
  Pool.onShared (modify (DaemonState.record (.getNextSettled outcome)))
  ofOutcome outcome

/-- Headers are compared by their roots. -/
def isFinalizedHeaderChanged (state : DaemonState) : Bool :=
  match state.lastFinalizedHeader with
  | none => true
  | some lastFinalizedHeader => lastFinalizedHeader.root ≠ finalizedHeader.root

/-- The tasks of a new finalized header. -/
def startTasks (state : DaemonState) : Async (Pool DaemonState) Unit := do
  let isFinalizedChanged := isFinalizedHeaderChanged finalizedHeader state
  if isFinalizedChanged ∧
      KeysIndexer.isTimeToUpdate config answers.consensus answers.now finalizedHeader
        state.world then
    Pool.spawn (onCatch (updateKeysIndexer config answers finalizedHeader))
  if isFinalizedChanged then
    Pool.spawn (onCatch (processBadPerformers config answers finalizedHeader))

/-- The promise `rootProcessing` holds until it has settled. -/
def rootChain (nextRoot : RootHex) : Async DaemonState Unit :=
  onFinally (onCatch (processNextRoot config balances answers finalizedHeader nextRoot))
    (modify (DaemonState.setRootProcessing false))

/-- The chain is started and kept as the root in progress. -/
def startNextRoot (nextRoot : RootHex) : Async (Pool DaemonState) Unit := do
  Pool.spawn (rootChain config balances answers finalizedHeader nextRoot)
  Pool.onShared (modify (DaemonState.setRootProcessing true))

/-- `baseRun`: the tasks of a new header are started, and then a root if none is in progress. -/
def baseRun : Async (Pool DaemonState) Unit := do
  Pool.onShared settle
  let pool ← read
  let finalizedHeader := pool.shared.world.finalizedHeader
  startTasks config answers finalizedHeader pool.shared
  Pool.onShared (modify fun state =>
    { state with lastFinalizedHeader := some finalizedHeader })
  let pool ← read
  if pool.shared.rootProcessing then
    return ()
  let nextRoot ← getNext config answers finalizedHeader
  match nextRoot with
  | none => tick
  | some nextRoot => startNextRoot config balances answers finalizedHeader nextRoot

/-- The index is read or built before the first run that finds it missing. -/
def initKeysIndexer : Async (Pool DaemonState) Unit := do
  let pool ← read
  if ¬ KeysIndexer.isInitialized pool.shared.world then
    Pool.onShared <| onWorld <| call <|
      KeysIndexer.initOrReadServiceData config answers.consensus answers.keysapi
        answers.fileReads

/--
One round of the loop.  It sleeps at its end, for a second or until the root is
processed or a slot has passed; there is no clock here, so it wakes at any time.
-/
def loopBody : Async (Pool DaemonState) Unit := do
  let _ ← attempt do
    initKeysIndexer config answers
    call (baseRun config balances answers)
  tick

end Tasks

/-- The daemon after the given turns; the finalized header may move in any of them. -/
def runLoop (config : Config) (balances : Bool) (answers : Nat → Answers)
    (world : World) (strikes : StrikesWorld) (turns : List (Turn BlockHeaderResponse)) :
    Running DaemonState :=
  Running.run (fun iteration => loopBody config balances (answers iteration))
    (fun finalizedHeader state =>
      { state with world := { state.world with finalizedHeader := finalizedHeader } })
    (.initial world strikes) turns

end DaemonService

end CsmProver
