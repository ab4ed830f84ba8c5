import CsmProver.Async.Program
import CsmProver.CacheHistory
import CsmProver.Consensus

namespace CsmProver

/-!
# The caches of the consensus client

`Consensus` keeps four caches in front of nodes whose answers change: the head and the
finalized block move on, and a block may get a child.  What the caches return may have
been read earlier only where the answer cannot have changed since.
-/

/-! ## What is asked -/

/-- A block or a state: a root, a slot or a name. -/
inductive ConsensusId where
  | root (value : RootHex)
  | slot (slotNumber : Nat)
  | genesis
  | head
  | finalized
  | justified
  deriving Repr, DecidableEq

namespace ConsensusId

/-- A root as 32 bytes in hexadecimal. -/
def rootText (value : RootHex) : String :=
  "0x" ++ String.ofList (List.leftpad 64 '0' (Nat.toDigits 16 value))

/-- The key of an id in a cache and in a URL. -/
def text : ConsensusId → String
  | .root value => rootText value
  | .slot slotNumber => toString slotNumber
  | .genesis => "genesis"
  | .head => "head"
  | .finalized => "finalized"
  | .justified => "justified"

end ConsensusId

/-- `isDynamicBlockId`. -/
def isDynamicBlockId (id : ConsensusId) : Bool :=
  id = .head ∨ id = .finalized

/-- `isDynamicStateId`, which adds the justified checkpoint. -/
def isDynamicStateId (id : ConsensusId) : Bool :=
  isDynamicBlockId id ∨ id = .justified

/-- `isCacheableConsensusId`: every id but the dynamic ones. -/
def isCacheableConsensusId : ConsensusId → Bool
  | .slot _ => true
  | id => if isDynamicBlockId id then false else if isDynamicStateId id then false else true

/-- The endpoints whose answers are cached. -/
inductive Endpoint where
  | blockInfo
  | beaconHeader
  | beaconHeadersByParentRoot
  | state
  deriving Repr, DecidableEq

namespace Endpoint

/-- What is asked of an endpoint. -/
abbrev Id : Endpoint → Type
  | .blockInfo => ConsensusId
  | .beaconHeader => ConsensusId
  | .beaconHeadersByParentRoot => RootHex
  | .state => ConsensusId

/-- What an endpoint answers. -/
abbrev Answer : Endpoint → Type
  | .blockInfo => SupportedBlock
  | .beaconHeader => BlockHeaderResponse
  | .beaconHeadersByParentRoot => BeaconHeadersByParentRootResponse
  | .state => State

/-- The request for what a text names. -/
def request : Endpoint → String → String
  | .blockInfo, text => "eth/v2/beacon/blocks/" ++ text
  | .beaconHeader, text => "eth/v1/beacon/headers/" ++ text
  | .beaconHeadersByParentRoot, text => "eth/v1/beacon/headers?parent_root=" ++ text
  | .state, text => "eth/v2/debug/beacon/states/" ++ text

/-- Children are stored once they are final. -/
def cache : (endpoint : Endpoint) → LruCache endpoint.Id endpoint.Answer
  | .blockInfo =>
      { capacity := 16
        shouldCache := isCacheableConsensusId
        shouldCacheValue := fun _ => true
        keyToString := ConsensusId.text }
  | .beaconHeader =>
      { capacity := 16
        shouldCache := isCacheableConsensusId
        shouldCacheValue := fun _ => true
        keyToString := ConsensusId.text }
  | .beaconHeadersByParentRoot =>
      { capacity := 16
        shouldCache := fun _ => true
        shouldCacheValue := fun resp => resp.finalized ∧ resp.data.length > 0
        keyToString := ConsensusId.rootText }
  | .state =>
      { capacity := 5
        shouldCache := isCacheableConsensusId
        shouldCacheValue := fun _ => true
        keyToString := ConsensusId.text }

/-- The path a call asks for. -/
def path (endpoint : Endpoint) (id : endpoint.Id) : String :=
  endpoint.request (endpoint.cache.keyToString id)

end Endpoint

/-! ## Runs of the client -/

/-- The caches, and when their calls and fetches began. -/
structure Client where
  now : Nat
  state : (endpoint : Endpoint) → LruCache.State endpoint.Id endpoint.Answer Abort
  history : (endpoint : Endpoint) → LruCache.History endpoint.Id

/-- Something happens to one of the caches. -/
structure ClientEvent where
  endpoint : Endpoint
  event : LruCache.Event endpoint.Id endpoint.Answer Abort

/-- The answers that some node gives to a request, at a moment. -/
abbrev Node : Type :=
  (endpoint : Endpoint) → Nat → String → endpoint.Answer → Prop

namespace Client

/-- A client that has asked nothing. -/
def initial : Client where
  now := 0
  state := fun _ => .initial
  history := fun _ => .initial

/-- One event happens in one of the caches, and the others wait. -/
def step (client : Client) (happens : ClientEvent) : Client :=
  let endpoint := happens.endpoint
  { now := client.now + 1
    state :=
      Function.update client.state endpoint
        (endpoint.cache.step (client.state endpoint) happens.event)
    history :=
      Function.update client.history endpoint
        ((client.history endpoint).note client.now (client.state endpoint) happens.event) }

/-- A run of the client. -/
def perform (client : Client) (events : List ClientEvent) : Client :=
  events.foldl step client

section Answers

variable (node : Node)

/-- What a node answers to the request for a text. -/
def answers (endpoint : Endpoint) (moment : Nat) (text : String)
    (value : endpoint.Answer) : Prop :=
  node endpoint moment (endpoint.request text) value

/-- Every answer that arrives was given by a node since its request was sent. -/
def Truthful : Client → List ClientEvent → Prop
  | _, [] => True
  | client, happens :: rest =>
      happens.endpoint.cache.Truthful (answers node happens.endpoint) client.now
          (client.history happens.endpoint) happens.event ∧
        Truthful (client.step happens) rest

/-- What may be stored does not change: a block, a state, the children of a final block. -/
def Fixed : Prop :=
  ∀ (endpoint : Endpoint) (id : endpoint.Id) (value : endpoint.Answer) (moment later : Nat),
    endpoint.cache.shouldCache id = true →
    endpoint.cache.shouldCacheValue value = true →
    moment ≤ later →
    node endpoint moment (endpoint.path id) value →
    node endpoint later (endpoint.path id) value

/-- All that is known of the caches is true of the node. -/
def Sourced (client : Client) : Prop :=
  ∀ endpoint : Endpoint,
    endpoint.cache.Sourced (answers node endpoint) client.now (client.history endpoint)
      (client.state endpoint)

end Answers

variable {node : Node} {client : Client}

/-- A truthful event keeps all caches accounted for. -/
theorem sourced_step
    (sourced : Sourced node client)
    {happens : ClientEvent}
    (truthful :
      happens.endpoint.cache.Truthful (answers node happens.endpoint) client.now
        (client.history happens.endpoint) happens.event) :
    Sourced node (client.step happens) := by
  intro endpoint
  by_cases same : endpoint = happens.endpoint
  · subst same
    simp only [step, Function.update_self]
    exact (sourced happens.endpoint).step truthful
  · simp only [step, Function.update_of_ne same]
    exact (sourced endpoint).later (Nat.le_succ client.now)

/-- So does a truthful run. -/
theorem sourced_perform
    (sourced : Sourced node client)
    {events : List ClientEvent}
    (truthful : Truthful node client events) :
    Sourced node (perform client events) := by
  induction events generalizing client with
  | nil => exact sourced
  | cons happens rest inductionHypothesis =>
      exact inductionHypothesis (sourced_step sourced truthful.1) truthful.2

/-- A truthful run of a new client is accounted for. -/
theorem sourced_run
    {events : List ClientEvent}
    (truthful : Truthful node .initial events) :
    Sourced node (perform .initial events) :=
  sourced_perform (fun _ => LruCache.sourced_initial _ _ _) truthful

/--
In every run of the client, however its calls overlap and its requests end: an answer
was given by a node to the same request; that to a dynamic id since the call; one that
may be stored is still the answer of the node if such answers do not change; and one
that may not be stored arrived after the call was made.
-/
theorem answers_as_nodes
    (node : Node)
    (events : List ClientEvent)
    (truthful : Truthful node .initial events)
    (endpoint : Endpoint)
    (index : Nat)
    (call : LruCache.Call endpoint.Id endpoint.Answer Abort)
    (value : endpoint.Answer)
    (isCall : ((perform .initial events).state endpoint).calls[index]? = some call)
    (returned : call.outcome = some (.ok value)) :
    let client := perform .initial events
    let began := (client.history endpoint).called index
    ∃ moment,
      moment < client.now ∧
      node endpoint moment (endpoint.path call.key) value ∧
      (endpoint.cache.shouldCache call.key = false → began ≤ moment) ∧
      (Fixed node →
        endpoint.cache.shouldCache call.key = true →
        endpoint.cache.shouldCacheValue value = true →
        node endpoint client.now (endpoint.path call.key) value) ∧
      (endpoint.cache.shouldCacheValue value = false →
        ∃ arrived, began ≤ arrived ∧ moment ≤ arrived ∧ arrived < client.now) := by
  intro client began
  obtain ⟨moment, past, answered, fresh, unstored⟩ :=
    ((sourced_run truthful endpoint).read isCall returned).moment
  refine ⟨moment, past, answered, fresh, fun fixed shouldCache storable => ?_, unstored⟩
  exact fixed endpoint call.key value moment client.now shouldCache storable past.le answered

/-! ### The answers of a fixed chain -/

/-- What `Consensus` answers to a request, as far as it holds the answer. -/
def shown (consensus : Consensus) :
    (endpoint : Endpoint) → endpoint.Id → Option endpoint.Answer
  | .blockInfo, .root root => some (consensus.blockInfo root)
  | .beaconHeader, .root root => some (consensus.beaconHeader root)
  | .beaconHeadersByParentRoot, root => some (consensus.beaconHeadersByParentRoot root)
  | .state, .root root => some (consensus.state root)
  | .state, .slot slotNumber => some (consensus.stateAtSlot slotNumber)
  | _, _ => none

/-- Cached or not, a client in front of such nodes answers as they do. -/
theorem answers_shown
    {consensus : Consensus}
    (shows :
      ∀ (endpoint : Endpoint) (id : endpoint.Id) (expected value : endpoint.Answer)
        (moment : Nat),
        shown consensus endpoint id = some expected →
        node endpoint moment (endpoint.path id) value →
        value = expected)
    {events : List ClientEvent}
    (truthful : Truthful node .initial events)
    {endpoint : Endpoint}
    {index : Nat}
    {call : LruCache.Call endpoint.Id endpoint.Answer Abort}
    {expected value : endpoint.Answer}
    (isCall : ((perform .initial events).state endpoint).calls[index]? = some call)
    (isShown : shown consensus endpoint call.key = some expected)
    (returned : call.outcome = some (.ok value)) :
    value = expected := by
  obtain ⟨moment, _, answered, _⟩ :=
    ((sourced_run truthful endpoint).read isCall returned).moment
  exact shows endpoint call.key expected value moment isShown answered

/-! ### A finalized header that moves on -/

/-- A finalized header at the given slot. -/
def sampleFinalized (slot : Nat) : BlockHeaderResponse where
  root := slot
  canonical := true
  message :=
    { slot := slot
      proposerIndex := 0
      parentRoot := slot - 1
      stateRoot := slot
      bodyRoot := slot }

/-- The finalized block moves from slot 5 to slot 6 at moment 2. -/
def sampleNode : Node
  | .beaconHeader, moment, _, header =>
      header = sampleFinalized (if moment < 2 then 5 else 6)
  | _, _, _, _ => False

/-- An event of the header cache. -/
def onHeaders (event : LruCache.Event ConsensusId BlockHeaderResponse Abort) :
    ClientEvent where
  endpoint := .beaconHeader
  event := event

/-- Two calls for the finalized header, each of which is answered before it goes on. -/
def sampleEvents : List ClientEvent :=
  [ onHeaders (.called .finalized), onHeaders (.settled 0 (.ok (sampleFinalized 5))),
    onHeaders (.resumed 0), onHeaders (.called .finalized),
    onHeaders (.settled 1 (.ok (sampleFinalized 6))), onHeaders (.resumed 1) ]

/-- Its node answers with the header that is finalized at the moment. -/
theorem sampleEvents_truthful :
    Truthful sampleNode .initial sampleEvents := by
  refine ⟨trivial, ?_, trivial, trivial, ?_, trivial, trivial⟩
  · rintro request ⟨rfl⟩
    exact ⟨1, by decide, by decide, rfl⟩
  · rintro request ⟨rfl⟩
    exact ⟨4, by decide, by decide, rfl⟩

/-- The second call is answered after it was made, by the header of slot 6. -/
theorem answers_as_nodes_sample :
    ((perform .initial sampleEvents).state .beaconHeader).calls[1]?.bind
        LruCache.Call.outcome = some (.ok (sampleFinalized 6)) ∧
      ∃ moment, 3 ≤ moment ∧
        sampleNode .beaconHeader moment "eth/v1/beacon/headers/finalized"
          (sampleFinalized 6) := by
  refine ⟨by decide, ?_⟩
  obtain ⟨moment, _, answered, fresh, _⟩ :=
    answers_as_nodes sampleNode sampleEvents sampleEvents_truthful .beaconHeader 1
      { key := .finalized, source := .promise 1, outcome := some (.ok (sampleFinalized 6)) }
      (sampleFinalized 6) rfl rfl
  exact ⟨moment, fresh rfl, answered⟩

end Client

end CsmProver
