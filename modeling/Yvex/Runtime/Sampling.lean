import Yvex.Foundation.Checked
import Yvex.Foundation.Digest
import Yvex.Foundation.Generator

namespace Yvex.Runtime.Sampling

open Generator

/-! # The random stream of a sampling context

A context selects tokens with the numbers of one seeded generator. Its selections draw directly, or
through a transaction that works on a copy of the generator and hands it back when it is published. -/

def pcgMultiplier : UInt64 := 6364136223846793005

def pcgIncrement : UInt64 := 1442695040888963407

/-- `yvex_runtime_sampling_pcg_next`: the number and the state behind it. -/
def pcgNext (increment state : UInt64) : UInt32 × UInt64 :=
  let shifted := (((state >>> 18) ^^^ state) >>> 27).toUInt32
  let rotation := (state >>> 59).toUInt32
  ((shifted >>> rotation) ||| (shifted <<< ((0 - rotation) &&& 31)),
    state * pcgMultiplier + increment)

/-- `yvex_runtime_sampling_pcg_seed`: the state; the increment is the fixed one. -/
def pcgSeed (seed : UInt64) : UInt64 := (pcgNext pcgIncrement ((pcgNext pcgIncrement 0).2 + seed)).2

inductive Strategy where
  | greedy
  | stochastic
deriving DecidableEq

/-- `yvex_runtime_sampling_context`. Of its lifecycle the two bits, of its summary the identity of
the generator. -/
structure Context where
  seed : UInt64
  strategy : Strategy
  maximumRows : Nat
  rngState : UInt64
  rngIncrement : UInt64
  successfulDraws : Nat
  active : Bool
  closing : Bool
  rngStateIdentity : Text

/-- `yvex_runtime_sampling_transaction` while it is active. The numbers it has handed out are not
kept in the source. -/
structure Transaction where
  initialState : UInt64
  nextState : UInt64
  initialDraws : Nat
  drawCount : Nat
  preparedIdentity : Text
  commitPrepared : Bool
  values : List UInt32

/-- A context with the transactions begun on it, by their handles; a handle is cleared when its
transaction ends. The numbers that took effect are not kept in the source. -/
structure World where
  context : Context
  transactions : List (Option Transaction)
  published : List UInt32

structure Numerics (Source Selected : Type) where
  Distribution : Type
  validate : Source → Except Rejection Unit
  greedy : Source → Except Rejection Selected
  distribution : Source → Except Rejection Distribution
  categorical : Distribution → UInt32 → Except Rejection Selected
  onDevice : Source → Bool
  deviceReady : Source → Except Rejection Unit
  deviceSelect : Source → UInt32 → Except Rejection Selected

/-- What is kept of `yvex_runtime_sampling_result`, with the number behind the selection. -/
structure Sample (Selected : Type) where
  selected : Selected
  number : Option UInt32
  rngStateBefore : Text
  rngStateAfter : Text

def Context.enter (context : Context) : Except Rejection Unit := do
  require (!context.closing) .state "sampling context is closing"
  require (!context.active) .state "sampling context is already in use"

def Context.transactionEnter (context : Context) : Except Rejection Unit :=
  require (!context.active) .state "sampling transaction owner is already in use"

section Identity

variable [Sha256] {Source Selected : Type}

def Context.rngIdentity (context : Context) (state : UInt64) (draws : Nat) : Text :=
  Sha256.hex [.label "yvex.runtime.sampling.rng.v1", .u64 1, .u64 1, .u64 context.seed.toNat,
    .u64 state.toNat, .u64 context.rngIncrement.toNat, .u64 draws]

/-- The part of `yvex_runtime_sampling_context_open` that concerns the generator. -/
def Context.opened (seed : UInt64) (strategy : Strategy) (maximumRows : Nat) : Context :=
  let context : Context := ⟨seed, strategy, maximumRows, pcgSeed seed, pcgIncrement, 0, false,
    false, []⟩
  { context with rngStateIdentity := context.rngIdentity context.rngState 0 }

variable (numerics : Numerics Source Selected) (context : Context)

section

variable (source : Source) (cancelled : Nat → Bool) (initialState : UInt64) (initialDraws : Nat)

def selectStochastic : Except Rejection (Sample Selected × UInt64) := do
  let distribution ← numerics.distribution source
  let nextDraws ← orReject (u64Add initialDraws 1) .state
    "stochastic candidate or RNG identity failed"
  require (!cancelled 1) .cancelled "sampling was cancelled before RNG publication"
  let (number, nextState) := pcgNext context.rngIncrement initialState
  let selected ← numerics.categorical distribution number
  return (⟨selected, some number, context.rngIdentity initialState initialDraws,
    context.rngIdentity nextState nextDraws⟩, nextState)

def selectDeviceStochastic : Except Rejection (Sample Selected × UInt64) := do
  numerics.deviceReady source
  let nextDraws ← orReject (u64Add initialDraws 1) .state "device stochastic RNG identity failed"
  require (!cancelled 1) .cancelled "device stochastic sampling was cancelled before launch"
  let (number, nextState) := pcgNext context.rngIncrement initialState
  let selected ← numerics.deviceSelect source number
  require (!cancelled 2) .cancelled
    "device stochastic sampling was cancelled before RNG publication"
  return (⟨selected, some number, context.rngIdentity initialState initialDraws,
    context.rngIdentity nextState nextDraws⟩, nextState)

def drawSample : Except Rejection (Sample Selected × UInt64) :=
  if numerics.onDevice source then
    selectDeviceStochastic numerics context source cancelled initialState initialDraws
  else selectStochastic numerics context source cancelled initialState initialDraws

def selectOwned : Except Rejection (Sample Selected × Context) := do
  require (!cancelled 0) .cancelled "sampling was cancelled before source admission"
  numerics.validate source
  if context.strategy = .greedy then do
    let selected ← numerics.greedy source
    let identity := context.rngIdentity context.rngState context.successfulDraws
    return (⟨selected, none, identity, identity⟩, context)
  else do
    let (sample, committed) ← drawSample numerics context source cancelled context.rngState
      context.successfulDraws
    return (sample, { context with
      rngState := committed
      successfulDraws := (context.successfulDraws + 1) % 2 ^ 64
      rngStateIdentity := sample.rngStateAfter })

end

structure Reply where
  numbers : List UInt32
  status : Except Rejection Unit

variable (world : World)

/-- `yvex_runtime_sampling_select` without a transaction. -/
def World.select (source : Source) (cancelled : Nat → Bool) : World × Reply :=
  match (do world.context.enter; selectOwned numerics world.context source cancelled) with
  | .error refusal => (world, ⟨[], .error refusal⟩)
  | .ok (sample, context) => ({ world with
      context, published := world.published ++ sample.number.toList },
      ⟨sample.number.toList, .ok ()⟩)

/-- The selections of `yvex_runtime_sampling_execute`, up to the first that fails. -/
def executeRows (numerics : Numerics Source Selected) :
    Context → List (Source × (Nat → Bool)) → Context × List UInt32 × Except Rejection Unit
  | context, [] => (context, [], .ok ())
  | context, (source, cancelled) :: rest =>
    match selectOwned numerics context source cancelled with
    | .error refusal => (context, [], .error refusal)
    | .ok (sample, next) =>
      let (last, numbers, status) := executeRows numerics next rest
      (last, sample.number.toList ++ numbers, status)

def World.execute (sources : List (Source × (Nat → Bool))) : World × Reply :=
  match (do
    require (!sources.isEmpty && decide (sources.length ≤ world.context.maximumRows))
      .invalidArgument "ordered sampling request or result capacity is invalid"
    world.context.enter) with
  | .error refusal => (world, ⟨[], .error refusal⟩)
  | .ok () =>
    let (context, numbers, status) := executeRows numerics world.context sources
    ({ world with context, published := world.published ++ numbers }, ⟨numbers, status⟩)

def World.begin (allocates : Bool) : World × Reply :=
  match (do
    world.context.enter
    require (decide (world.context.strategy = .stochastic)) .unsupported
      "greedy sampling has no RNG transaction"
    require allocates .noMemory "sampling transaction allocation failed" :
      Except Rejection Unit) with
  | .error refusal => (world, ⟨[], .error refusal⟩)
  | .ok () => ({ world with transactions := world.transactions ++ [some ⟨world.context.rngState,
      world.context.rngState, world.context.successfulDraws, 0, [], false, []⟩] }, ⟨[], .ok ()⟩)

variable (handle : Nat)

def World.find : Option Transaction := world.transactions[handle]?.bind id

def World.put (transaction : Option Transaction) : World :=
  { world with transactions := world.transactions.set handle transaction }

/-- The numbers of `yvex_runtime_sampling_transaction_uniforms`; each is a value `(n + 0.5) / 2^32`. -/
def drawNumbers (increment : UInt64) (cancelled : Nat → Bool) :
    Nat → Nat → UInt64 → Except Rejection (List UInt32 × UInt64)
  | 0, _, state => .ok ([], state)
  | count + 1, index, state => do
    require (!cancelled index) .cancelled "sampling transaction draw was cancelled"
    let (number, next) := pcgNext increment state
    let (numbers, last) ← drawNumbers increment cancelled count (index + 1) next
    return (number :: numbers, last)

def World.uniforms (handle count : Nat) (cancelled : Nat → Bool) : World × Reply :=
  match (do
    let transaction ← orReject (world.find handle) .invalidArgument
      "sampling transaction draw extent is invalid"
    require (count != 0) .invalidArgument "sampling transaction draw extent is invalid"
    let nextCount ← orReject (u64Add transaction.drawCount count) .invalidArgument
      "sampling transaction draw extent is invalid"
    require (decide (nextCount ≤ world.context.maximumRows)) .invalidArgument
      "sampling transaction draw extent is invalid"
    let (numbers, nextState) ← drawNumbers world.context.rngIncrement cancelled count 0
      transaction.nextState
    return ({ transaction with
      nextState, drawCount := nextCount, values := transaction.values ++ numbers }, numbers) :
      Except Rejection (Transaction × List UInt32)) with
  | .error refusal => (world, ⟨[], .error refusal⟩)
  | .ok (transaction, numbers) => (world.put handle (some transaction), ⟨numbers, .ok ()⟩)

def Context.atBase (transaction : Transaction) : Bool :=
  context.rngState == transaction.initialState && context.successfulDraws == transaction.initialDraws

def World.transactionSelect (source : Source) (cancelled : Nat → Bool) : World × Reply :=
  match (do
    let transaction ← orReject (world.find handle) .invalidArgument
      "sampling transaction selection extent is invalid"
    require (!transaction.commitPrepared) .invalidArgument
      "sampling transaction selection extent is invalid"
    let nextCount ← orReject (u64Add transaction.drawCount 1) .invalidArgument
      "sampling transaction selection extent is invalid"
    require (decide (nextCount ≤ world.context.maximumRows)) .invalidArgument
      "sampling transaction selection extent is invalid"
    let stagedDraws ← orReject (u64Add transaction.initialDraws transaction.drawCount)
      .invalidArgument "sampling transaction selection extent is invalid"
    world.context.enter
    require (world.context.atBase transaction) .state "sampling transaction base state changed"
    numerics.validate source
    let (sample, nextState) ← drawSample numerics world.context source cancelled
      transaction.nextState stagedDraws
    return ({ transaction with
      nextState, drawCount := nextCount
      values := transaction.values ++ sample.number.toList }, sample.number.toList) :
      Except Rejection (Transaction × List UInt32)) with
  | .error refusal => (world, ⟨[], .error refusal⟩)
  | .ok (transaction, numbers) => (world.put handle (some transaction), ⟨numbers, .ok ()⟩)

/-- `yvex_runtime_sampling_transaction_prepare_commit`. A prepared transaction keeps the context in
use. -/
def World.prepareCommit : World × Reply :=
  match (do
    let transaction ← orReject (world.find handle) .invalidArgument
      "sampling transaction is not commit-ready"
    require (!transaction.commitPrepared) .invalidArgument "sampling transaction is not commit-ready"
    world.context.transactionEnter
    require (world.context.atBase transaction) .state "sampling transaction base state changed"
    let nextDraws ← orReject (u64Add transaction.initialDraws transaction.drawCount) .state
      "sampling transaction commit identity failed"
    return { transaction with
      commitPrepared := true
      preparedIdentity := world.context.rngIdentity transaction.nextState nextDraws } :
      Except Rejection Transaction) with
  | .error refusal => (world, ⟨[], .error refusal⟩)
  | .ok transaction => ({ world.put handle (some transaction) with
      context := { world.context with active := true } }, ⟨[], .ok ()⟩)

def World.resolvePrepared (publish : Bool) : World :=
  match world.find handle with
  | some transaction =>
    if transaction.commitPrepared then
      let context := if publish then { world.context with
          rngState := transaction.nextState
          successfulDraws := (world.context.successfulDraws + transaction.drawCount) % 2 ^ 64
          rngStateIdentity := transaction.preparedIdentity }
        else world.context
      { world.put handle none with
        context := { context with active := false }
        published := world.published ++ if publish then transaction.values else [] }
    else world
  | none => world

/-- `yvex_runtime_sampling_transaction_abort`, with `sampling_transaction_finish` for a transaction
that is not prepared. -/
def World.abort : World × Reply :=
  match world.find handle with
  | none => (world, ⟨[], .ok ()⟩)
  | some transaction =>
    if transaction.commitPrepared then (world.resolvePrepared handle false, ⟨[], .ok ()⟩)
    else
      match world.context.transactionEnter with
      | .error refusal => (world, ⟨[], .error refusal⟩)
      | .ok () => (world.put handle none, ⟨[], .ok ()⟩)

/-- The calls on a context and its transactions. Closing announces itself and waits for the open
transactions; the freed context is not part of the model. -/
inductive SamplingCall (Source : Type) where
  | select (source : Source) (cancelled : Nat → Bool)
  | execute (sources : List (Source × (Nat → Bool)))
  | begin (allocates : Bool)
  | uniforms (handle count : Nat) (cancelled : Nat → Bool)
  | transactionSelect (handle : Nat) (source : Source) (cancelled : Nat → Bool)
  | prepareCommit (handle : Nat)
  | publishCommit (handle : Nat)
  | abort (handle : Nat)
  | close

def World.step : SamplingCall Source → World × Reply
  | .select source cancelled => world.select numerics source cancelled
  | .execute sources => world.execute numerics sources
  | .begin allocates => world.begin allocates
  | .uniforms handle count cancelled => world.uniforms handle count cancelled
  | .transactionSelect handle source cancelled =>
    world.transactionSelect numerics handle source cancelled
  | .prepareCommit handle => world.prepareCommit handle
  | .publishCommit handle => (world.resolvePrepared handle true, ⟨[], .ok ()⟩)
  | .abort handle => world.abort handle
  | .close => ({ world with context := { world.context with closing := true } }, ⟨[], .ok ()⟩)

def World.run (calls : List (SamplingCall Source)) : World :=
  calls.foldl (fun world call => (world.step numerics call).1) world

end Identity

end Yvex.Runtime.Sampling
