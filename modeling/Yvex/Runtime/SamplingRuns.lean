import Yvex.Runtime.Sampling

namespace Yvex.Runtime.Sampling

open Generator Yvex.Except

/-! # Runs of a sampling context

Whatever is called on a context, the numbers that take effect are one stream of its generator. The
identity in its summary follows, unless numbers are drawn behind the back of a prepared
transaction. -/

abbrev pcg : UInt64 → UInt32 × UInt64 := pcgNext pcgIncrement

theorem advance_mod (count : Nat) (state : UInt64) :
    advance pcg (count % 2 ^ 64) state = advance pcg count state :=
  (affine_periodic 1591034055961698251 pcgIncrement state).iterate_mod_apply count

/-! ## Handles -/

variable {world : World} {transaction : Transaction}

theorem World.find_put {put : Option Transaction}
    (found : (world.put handle put).find other = some transaction) :
    other = handle ∧ put = some transaction ∨
      other ≠ handle ∧ world.find other = some transaction := by
  rw [World.find, World.put, List.getElem?_set] at found
  split at found
  · rename_i same
    split at found
    · exact .inl ⟨same.symm, found⟩
    · cases found
  · rename_i different
    exact .inr ⟨Ne.symm different, found⟩

theorem World.find_append {begun : Transaction}
    (found : { world with transactions := world.transactions ++ [some begun] }.find handle =
      some transaction) : world.find handle = some transaction ∨ transaction = begun := by
  rw [World.find, List.getElem?_append] at found
  split at found
  · exact .inl found
  obtain ⟨entry, present, same⟩ := Option.bind_eq_some_iff.mp found
  have entry_eq := List.mem_singleton.mp (List.mem_of_getElem? present)
  exact .inr (Option.some.inj (entry_eq ▸ same)).symm

/-! ## Numbers of a transaction -/

theorem drawNumbers_eq_ok
    (accepted : drawNumbers pcgIncrement cancelled count index state = .ok (numbers, last)) :
    Draws pcg state numbers last ∧ numbers.length = count := by
  induction count generalizing index state numbers with
  | zero =>
    cases accepted
    exact ⟨.nil _, rfl⟩
  | succ count induction => ?_
  replace accepted := behind accepted
  obtain ⟨⟨rest, _⟩, draws, accepted⟩ := bind_eq_ok.mp accepted
  cases accepted
  obtain ⟨draws, length⟩ := induction draws
  exact ⟨draws.cons, congrArg _ length⟩

variable {context : Context}

theorem enter_eq_ok (entered : context.enter = .ok result) : context.active = false := by
  have idle := behind entered
  simpa using require_eq_ok.mp idle

theorem transactionEnter_eq_ok (entered : context.transactionEnter = .ok result) :
    context.active = false := by
  simpa using require_eq_ok.mp entered

/-! ## Every run is one stream -/

structure Transaction.Genuine (transaction : Transaction) : Prop where
  draws : Draws pcg transaction.initialState transaction.values transaction.nextState
  counted : transaction.drawCount = transaction.values.length

/-- One stream took effect. A prepared transaction stands on the current base and is the only one. -/
structure World.Genuine (seed : UInt64) (world : World) : Prop where
  increment : world.context.rngIncrement = pcgIncrement
  stream : Draws pcg (pcgSeed seed) world.published world.context.rngState
  counted : world.context.successfulDraws = world.published.length % 2 ^ 64
  genuine : ∀ handle transaction, world.find handle = some transaction → transaction.Genuine
  based : ∀ handle transaction, world.find handle = some transaction →
    transaction.commitPrepared = true → world.context.atBase transaction = true
  inUse : ∀ handle transaction, world.find handle = some transaction →
    transaction.commitPrepared = true → world.context.active = true
  alone : ∀ handle other first second, world.find handle = some first →
    world.find other = some second → first.commitPrepared = true →
    second.commitPrepared = true → handle = other

variable {seed : UInt64}

theorem World.Genuine.small (genuine : world.Genuine seed) :
    world.context.successfulDraws < 2 ^ 64 := by
  rw [genuine.counted]
  exact Nat.mod_lt _ (by decide)

theorem atBase_iff :
    context.atBase transaction = true ↔ context.rngState = transaction.initialState ∧
      context.successfulDraws = transaction.initialDraws := by
  rw [Context.atBase, Bool.and_eq_true, beq_iff_eq, beq_iff_eq]

theorem World.Genuine.others (genuine : world.Genuine seed)
    (found : world.find handle = some transaction)
    (quiet : transaction.commitPrepared = true ∨ world.context.active = false)
    (different : other ≠ handle) (present : world.find other = some second) :
    ¬ second.commitPrepared = true := by
  grind [cases World.Genuine]

variable {after : World}

theorem World.Genuine.of_earlier (genuine : world.Genuine seed)
    (sameContext : after.context = world.context)
    (samePublished : after.published = world.published)
    (each : ∀ handle transaction, after.find handle = some transaction →
      transaction.Genuine ∧ (transaction.commitPrepared = true → ∃ earlier,
        world.find handle = some earlier ∧ earlier.commitPrepared = true ∧
        earlier.initialState = transaction.initialState ∧
        earlier.initialDraws = transaction.initialDraws)) :
    after.Genuine seed where
  increment := sameContext ▸ genuine.increment
  stream := by
    rw [sameContext, samePublished]
    exact genuine.stream
  counted := by rw [sameContext, samePublished, genuine.counted]
  genuine handle transaction found := (each handle transaction found).1
  based handle transaction found ready := by
    obtain ⟨earlier, present, was, state, draws⟩ := (each handle transaction found).2 ready
    have base := genuine.based handle earlier present was
    rw [atBase_iff] at base ⊢
    rw [sameContext, ← state, ← draws]
    exact base
  inUse handle transaction found ready := by
    grind [cases World.Genuine]
  alone handle other first second found found' ready ready' := by
    grind [cases World.Genuine]

theorem World.Genuine.of_removed (genuine : world.Genuine seed)
    (found : world.find handle = some transaction)
    (quiet : transaction.commitPrepared = true ∨ world.context.active = false)
    (removed : after.transactions = (world.put handle none).transactions)
    (increment : after.context.rngIncrement = world.context.rngIncrement)
    (stream : Draws pcg (pcgSeed seed) after.published after.context.rngState)
    (counted : after.context.successfulDraws = after.published.length % 2 ^ 64) :
    after.Genuine seed := by
  have each : ∀ other second, after.find other = some second →
      second.Genuine ∧ ¬ second.commitPrepared = true := by
    intro other second present
    rw [World.find, removed] at present
    rcases World.find_put present with ⟨_, same⟩ | ⟨different, earlier⟩
    · cases same
    · exact ⟨genuine.genuine other second earlier, genuine.others found quiet different earlier⟩
  exact
    { increment := increment.trans genuine.increment
      stream
      counted
      genuine := fun other second present => (each other second present).1
      based := fun other second present ready => absurd ready (each other second present).2
      inUse := fun other second present ready => absurd ready (each other second present).2
      alone := fun other _ second _ present _ ready => absurd ready (each other second present).2 }

section Identity

variable [Sha256] {Source Selected : Type}

/-! ## What a call does -/

def Context.Stamped (context : Context) : Prop :=
  context.rngStateIdentity = context.rngIdentity context.rngState context.successfulDraws

structure Context.Drew (before : Context) (numbers : List UInt32) (after : Context) : Prop where
  seed : after.seed = before.seed
  increment : after.rngIncrement = before.rngIncrement
  active : after.active = before.active
  draws : Draws pcg before.rngState numbers after.rngState
  counted : after.successfulDraws = (before.successfulDraws + numbers.length) % 2 ^ 64
  stamped : before.Stamped → after.Stamped

theorem Context.Drew.nil (context : Context) (small : context.successfulDraws < 2 ^ 64) :
    context.Drew [] context where
  seed := rfl
  increment := rfl
  active := rfl
  draws := .nil _
  counted := by rw [List.length_nil, add_zero, Nat.mod_eq_of_lt small]
  stamped := id

variable {before : Context} {after : Context}

theorem Context.Drew.append (earlier : before.Drew first middle)
    (later : middle.Drew second after) :
    before.Drew (first ++ second) after where
  seed := later.seed.trans earlier.seed
  increment := later.increment.trans earlier.increment
  active := later.active.trans earlier.active
  draws := earlier.draws.append later.draws
  counted := by
    rw [later.counted, earlier.counted, Nat.mod_add_mod, List.length_append, add_assoc]
  stamped stamped := later.stamped (earlier.stamped stamped)

theorem drawSample_eq_ok (increment : context.rngIncrement = pcgIncrement)
    (accepted : drawSample numerics context source cancelled state draws = .ok (sample, next)) :
    sample.number = some (pcg state).1 ∧ next = (pcg state).2 ∧ draws + 1 ≤ u64Max ∧
      sample.rngStateAfter = context.rngIdentity next (draws + 1) := by
  rw [drawSample] at accepted
  split at accepted
  · replace accepted := behind accepted
    obtain ⟨sum, added, accepted⟩ := bind_eq_ok.mp accepted
    replace accepted := behind accepted
    obtain ⟨_, _, accepted⟩ := bind_eq_ok.mp accepted
    replace accepted := behind accepted
    obtain ⟨rfl, fits⟩ := u64Add_eq_some.mp (orReject_eq_ok.mp added)
    cases accepted
    rw [increment]
    exact ⟨rfl, rfl, fits, rfl⟩
  · obtain ⟨_, _, accepted⟩ := bind_eq_ok.mp accepted
    obtain ⟨sum, added, accepted⟩ := bind_eq_ok.mp accepted
    replace accepted := behind accepted
    obtain ⟨_, _, accepted⟩ := bind_eq_ok.mp accepted
    obtain ⟨rfl, fits⟩ := u64Add_eq_some.mp (orReject_eq_ok.mp added)
    cases accepted
    rw [increment]
    exact ⟨rfl, rfl, fits, rfl⟩

theorem selectOwned_drew (increment : before.rngIncrement = pcgIncrement)
    (small : before.successfulDraws < 2 ^ 64)
    (accepted : selectOwned numerics before source cancelled = .ok (sample, after)) :
    before.Drew sample.number.toList after := by
  replace accepted := behind (behind accepted)
  split at accepted
  · obtain ⟨_, _, accepted⟩ := bind_eq_ok.mp accepted
    cases accepted
    exact .nil before small
  obtain ⟨⟨drawn, committed⟩, draws, accepted⟩ := bind_eq_ok.mp accepted
  cases accepted
  obtain ⟨number, next, fits, identity⟩ := drawSample_eq_ok increment draws
  rw [number, next] at *
  refine ⟨rfl, rfl, rfl, .one _, rfl, fun _ => ?_⟩
  have whole : (before.successfulDraws + 1) % 2 ^ 64 = before.successfulDraws + 1 :=
    Nat.mod_eq_of_lt (lt_of_le_of_lt fits (by decide))
  simp only [Context.Stamped, whole, identity, Context.rngIdentity]

theorem executeRows_drew (rows : List (Source × (Nat → Bool)))
    (increment : before.rngIncrement = pcgIncrement) (small : before.successfulDraws < 2 ^ 64) :
    before.Drew (executeRows numerics before rows).2.1 (executeRows numerics before rows).1 := by
  induction rows generalizing before with
  | nil => exact .nil before small
  | cons row rows induction => ?_
  rw [executeRows]
  split
  · exact .nil before small
  rename_i sample next accepted
  have first := selectOwned_drew increment small accepted
  exact first.append (induction (first.increment.trans increment)
    (first.counted ▸ Nat.mod_lt _ (by decide)))

def SamplingCall.drawsPrepared (world : World) : SamplingCall Source → Bool
  | .uniforms handle _ _ => (world.find handle).any Transaction.commitPrepared
  | _ => false

def World.Advances (numerics : Numerics Source Selected) (world : World) (call : SamplingCall Source) :
    Prop :=
  match call with
  | .select _ _ | .execute _ => (world.step numerics call).2.numbers ≠ []
  | .publishCommit handle => ∃ transaction, world.find handle = some transaction ∧
      transaction.commitPrepared = true ∧ world.context.atBase transaction = true
  | _ => False

inductive Effect (late advances : Prop) (world : World) : World → Prop where
  | kept (closing : Bool) : Effect late advances world
      { world with context := { world.context with closing } }
  | drew {numbers : List UInt32} {context : Context} (idle : world.context.active = false)
      (drew : world.context.Drew numbers context)
      (allowed : advances ∨ numbers = []) :
      Effect late advances world { world with context, published := world.published ++ numbers }
  | begun : Effect late advances world { world with
      transactions := world.transactions ++ [some ⟨world.context.rngState, world.context.rngState,
        world.context.successfulDraws, 0, [], false, []⟩] }
  | extended {handle : Nat} {transaction : Transaction} {numbers : List UInt32} {next : UInt64}
      (found : world.find handle = some transaction)
      (early : transaction.commitPrepared = false ∨ late)
      (draws : Draws pcg transaction.nextState numbers next) :
      Effect late advances world (world.put handle (some { transaction with
        nextState := next
        drawCount := transaction.drawCount + numbers.length
        values := transaction.values ++ numbers }))
  | prepared {handle : Nat} {transaction : Transaction} (found : world.find handle = some transaction)
      (idle : world.context.active = false) (based : world.context.atBase transaction = true)
      (fits : transaction.initialDraws + transaction.drawCount ≤ u64Max) :
      Effect late advances world { world.put handle (some { transaction with
          commitPrepared := true
          preparedIdentity := world.context.rngIdentity transaction.nextState
            (transaction.initialDraws + transaction.drawCount) }) with
        context := { world.context with active := true } }
  | published {handle : Nat} {transaction : Transaction}
      (found : world.find handle = some transaction) (ready : transaction.commitPrepared = true)
      (allowed : advances) :
      Effect late advances world { world.put handle none with
        context := { world.context with
          rngState := transaction.nextState
          successfulDraws := (world.context.successfulDraws + transaction.drawCount) % 2 ^ 64
          rngStateIdentity := transaction.preparedIdentity
          active := false }
        published := world.published ++ transaction.values }
  | released {handle : Nat} {transaction : Transaction} (found : world.find handle = some transaction)
      (quiet : transaction.commitPrepared = true ∨ world.context.active = false) :
      Effect late advances world { world.put handle none with
        context := { world.context with active := false } }

theorem Effect.same {late advances : Prop} (world : World) : Effect late advances world world :=
  .kept world.context.closing

section Steps

variable {world : World} {late : Prop}

theorem select_effect (source : Source) (cancelled : Nat → Bool)
    (increment : world.context.rngIncrement = pcgIncrement)
    (small : world.context.successfulDraws < 2 ^ 64) :
    Effect late (world.Advances numerics (.select source cancelled)) world
      (world.select numerics source cancelled).1 := by
  have outcome : (world.select numerics source cancelled).2.numbers ≠ [] ∨
      (world.select numerics source cancelled).2.numbers = [] := (em _).symm
  unfold World.Advances World.step
  dsimp only
  revert outcome
  rw [World.select]
  split
  · exact fun _ => .same world
  rename_i sample context accepted
  intro outcome
  obtain ⟨_, entered, accepted⟩ := bind_eq_ok.mp accepted
  exact .drew (enter_eq_ok entered) (selectOwned_drew increment small accepted) outcome

theorem execute_effect (sources : List (Source × (Nat → Bool)))
    (increment : world.context.rngIncrement = pcgIncrement)
    (small : world.context.successfulDraws < 2 ^ 64) :
    Effect late (world.Advances numerics (.execute sources)) world
      (world.execute numerics sources).1 := by
  have outcome : (world.execute numerics sources).2.numbers ≠ [] ∨
      (world.execute numerics sources).2.numbers = [] := (em _).symm
  unfold World.Advances World.step
  dsimp only
  revert outcome
  rw [World.execute]
  split
  · exact fun _ => .same world
  rename_i accepted
  intro outcome
  have entered := behind accepted
  exact .drew (enter_eq_ok entered) (executeRows_drew sources increment small) outcome

variable {advances : Prop}

theorem begin_effect (allocates : Bool) : Effect late advances world (world.begin allocates).1 := by
  rw [World.begin]
  split
  · exact .same world
  · exact .begun

theorem uniforms_effect (handle count : Nat) (cancelled : Nat → Bool)
    (increment : world.context.rngIncrement = pcgIncrement)
    (asked : (world.find handle).any Transaction.commitPrepared = true → late) :
    Effect late advances world (world.uniforms handle count cancelled).1 := by
  rw [World.uniforms]
  split
  · exact .same world
  rename_i after numbers accepted
  obtain ⟨transaction, found, accepted⟩ := bind_eq_ok.mp accepted
  replace accepted := behind accepted
  obtain ⟨nextCount, counted, accepted⟩ := bind_eq_ok.mp accepted
  replace accepted := behind accepted
  obtain ⟨⟨drawn, next⟩, drew, accepted⟩ := bind_eq_ok.mp accepted
  cases accepted
  have found := orReject_eq_ok.mp found
  obtain ⟨rfl, _⟩ := u64Add_eq_some.mp (orReject_eq_ok.mp counted)
  rw [increment] at drew
  obtain ⟨draws, length⟩ := drawNumbers_eq_ok drew
  rw [← length]
  apply Effect.extended found _ draws
  rw [found] at asked
  cases ready : transaction.commitPrepared with
  | false => exact .inl rfl
  | true => exact .inr (asked ready)

variable (handle : Nat)

theorem transactionSelect_effect (source : Source) (cancelled : Nat → Bool)
    (increment : world.context.rngIncrement = pcgIncrement) :
    Effect late advances world (world.transactionSelect numerics handle source cancelled).1 := by
  rw [World.transactionSelect]
  split
  · exact .same world
  rename_i after numbers accepted
  obtain ⟨transaction, found, accepted⟩ := bind_eq_ok.mp accepted
  obtain ⟨_, unprepared, accepted⟩ := bind_eq_ok.mp accepted
  obtain ⟨nextCount, counted, accepted⟩ := bind_eq_ok.mp accepted
  replace accepted := behind accepted
  obtain ⟨_, _, accepted⟩ := bind_eq_ok.mp accepted
  replace accepted := behind (behind (behind accepted))
  obtain ⟨⟨sample, next⟩, drew, accepted⟩ := bind_eq_ok.mp accepted
  cases accepted
  obtain ⟨rfl, _⟩ := u64Add_eq_some.mp (orReject_eq_ok.mp counted)
  obtain ⟨number, rfl, _⟩ := drawSample_eq_ok increment drew
  rw [number]
  exact .extended (orReject_eq_ok.mp found) (.inl (by simpa using require_eq_ok.mp unprepared))
    (.one _)

theorem prepareCommit_effect : Effect late advances world (world.prepareCommit handle).1 := by
  rw [World.prepareCommit]
  split
  · exact .same world
  rename_i after accepted
  obtain ⟨transaction, found, accepted⟩ := bind_eq_ok.mp accepted
  replace accepted := behind accepted
  obtain ⟨_, entered, accepted⟩ := bind_eq_ok.mp accepted
  obtain ⟨_, based, accepted⟩ := bind_eq_ok.mp accepted
  obtain ⟨nextDraws, added, accepted⟩ := bind_eq_ok.mp accepted
  cases accepted
  obtain ⟨rfl, fits⟩ := u64Add_eq_some.mp (orReject_eq_ok.mp added)
  exact .prepared (orReject_eq_ok.mp found) (transactionEnter_eq_ok entered)
    (require_eq_ok.mp based) fits

theorem publishCommit_effect (allowed : ∀ transaction, world.find handle = some transaction →
      transaction.commitPrepared = true → advances) :
    Effect late advances world (world.resolvePrepared handle true) := by
  rw [World.resolvePrepared]
  split
  · rename_i transaction found
    split
    · rename_i ready
      exact .published found ready (allowed transaction found ready)
    · exact .same world
  · exact .same world

theorem abort_effect : Effect late advances world (world.abort handle).1 := by
  rw [World.abort]
  split
  · exact .same world
  rename_i transaction found
  split
  · rename_i ready
    rw [World.resolvePrepared, found]
    dsimp only
    rw [if_pos ready, if_neg (by decide), if_neg (by decide), List.append_nil]
    exact .released found (.inl ready)
  split
  · exact .same world
  rename_i entered
  have idle := transactionEnter_eq_ok entered
  have released : Effect late advances world { world.put handle none with
      context := { world.context with active := false } } := .released found (.inr idle)
  rwa [← idle] at released

end Steps

/-! ## Steps keep the stream -/

variable {seed : UInt64} {world after : World} {late advances : Prop}

theorem World.Genuine.opened (seed : UInt64) (strategy : Strategy) (maximumRows : Nat) :
    (World.mk (.opened seed strategy maximumRows) [] []).Genuine seed where
  increment := rfl
  stream := .nil _
  counted := rfl
  genuine := nofun
  based := nofun
  inUse := nofun
  alone := nofun

theorem Effect.genuine (effect : Effect late advances world after) (genuine : world.Genuine seed) :
    after.Genuine seed := by
  cases effect with
  | kept closing => exact { genuine with based := genuine.based }
  | drew idle drew allowed =>
    exact
      { genuine with
        increment := drew.increment.trans genuine.increment
        stream := genuine.stream.append drew.draws
        counted := by rw [drew.counted, genuine.counted, Nat.mod_add_mod, List.length_append]
        based := fun handle transaction found ready => by
          rw [genuine.inUse handle transaction found ready] at idle
          cases idle
        inUse := fun handle transaction found ready =>
          drew.active.trans (genuine.inUse handle transaction found ready) }
  | begun =>
    refine World.Genuine.of_earlier genuine rfl rfl fun handle transaction present => ?_
    rcases World.find_append present with earlier | rfl
    · grind [cases World.Genuine]
    · exact ⟨⟨.nil _, rfl⟩, nofun⟩
  | @extended handle transaction numbers next found early draws =>
    refine World.Genuine.of_earlier genuine rfl rfl fun other second present => ?_
    rcases World.find_put present with ⟨rfl, same⟩ | ⟨_, earlier⟩
    · cases same
      have drawn := genuine.genuine other transaction found
      refine ⟨⟨drawn.draws.append draws, ?_⟩, fun ready => ⟨transaction, found, ready, rfl, rfl⟩⟩
      rw [List.length_append, drawn.counted]
    · grind [cases World.Genuine]
  | @prepared handle transaction found idle based fits =>
    have each : ∀ other second, (world.put handle (some { transaction with
        commitPrepared := true
        preparedIdentity := world.context.rngIdentity transaction.nextState
          (transaction.initialDraws + transaction.drawCount) })).find other = some second →
        second.Genuine ∧ (second.commitPrepared = true →
          other = handle ∧ world.context.atBase second = true) := by
      intro other second present
      rcases World.find_put present with ⟨rfl, same⟩ | ⟨different, earlier⟩
      · cases same
        have drawn := genuine.genuine other transaction found
        exact ⟨⟨drawn.draws, drawn.counted⟩, fun _ => ⟨rfl, based⟩⟩
      · grind [cases World.Genuine]
    exact
      { genuine with
        genuine := fun other second present => (each other second present).1
        based := fun other second present ready => ((each other second present).2 ready).2
        inUse := fun _ _ _ _ => rfl
        alone := fun first second left right present present' ready ready' =>
          ((each first left present).2 ready).1.trans ((each second right present').2 ready').1.symm }
  | @published handle transaction found ready allowed =>
    have base := atBase_iff.mp (genuine.based handle transaction found ready)
    have drawn := genuine.genuine handle transaction found
    refine World.Genuine.of_removed genuine found (.inl ready) rfl rfl
      (genuine.stream.append (base.1 ▸ drawn.draws)) ?_
    · rw [genuine.counted, Nat.mod_add_mod, List.length_append, drawn.counted]
  | @released handle transaction found quiet =>
    exact genuine.of_removed found quiet rfl rfl genuine.stream genuine.counted

theorem Effect.unchanged (effect : Effect late advances world after) (genuine : world.Genuine seed)
    (still : ¬ advances) : after.context.rngState = world.context.rngState ∧
      after.context.successfulDraws = world.context.successfulDraws := by
  cases effect with
  | kept closing => exact ⟨rfl, rfl⟩
  | @drew numbers context idle drew allowed =>
    have empty : numbers = [] := allowed.resolve_left still
    rw [empty] at drew
    exact ⟨drew.draws.last_eq, drew.counted.trans (Nat.mod_eq_of_lt genuine.small)⟩
  | begun => exact ⟨rfl, rfl⟩
  | extended found early draws => exact ⟨rfl, rfl⟩
  | prepared found idle based fits => exact ⟨rfl, rfl⟩
  | published found ready allowed => exact absurd allowed still
  | released found quiet => exact ⟨rfl, rfl⟩

/-- The identity of the context is right, and so is the one a prepared transaction will install. -/
structure World.Stamped (world : World) : Prop where
  context : world.context.Stamped
  prepared : ∀ handle transaction, world.find handle = some transaction →
    transaction.commitPrepared = true →
    transaction.initialDraws + transaction.drawCount ≤ u64Max ∧ transaction.preparedIdentity =
      world.context.rngIdentity transaction.nextState
        (transaction.initialDraws + transaction.drawCount)

theorem Effect.stamped (effect : Effect late advances world after) (genuine : world.Genuine seed)
    (early : ¬ late) (stamped : world.Stamped) : after.Stamped := by
  cases effect with
  | kept closing => exact ⟨stamped.context, stamped.prepared⟩
  | @drew numbers context idle drew allowed =>
    refine ⟨drew.stamped stamped.context, fun handle transaction found ready => ?_⟩
    rw [genuine.inUse handle transaction found ready] at idle
    cases idle
  | begun =>
    refine ⟨stamped.context, fun handle transaction found ready => ?_⟩
    rcases World.find_append found with earlier | rfl
    · exact stamped.prepared handle transaction earlier ready
    · cases ready
  | @extended handle transaction numbers next found unprepared draws =>
    refine ⟨stamped.context, fun other second present ready => ?_⟩
    rcases World.find_put present with ⟨rfl, same⟩ | ⟨_, earlier⟩
    · cases same
      cases ready.symm.trans (unprepared.resolve_right early)
    · exact stamped.prepared other second earlier ready
  | @prepared handle transaction found idle based fits =>
    refine ⟨stamped.context, fun other second present ready => ?_⟩
    rcases World.find_put present with ⟨rfl, same⟩ | ⟨_, earlier⟩
    · cases same
      exact ⟨fits, rfl⟩
    · exact stamped.prepared other second earlier ready
  | @published handle transaction found ready allowed =>
    obtain ⟨fits, identity⟩ := stamped.prepared handle transaction found ready
    have base := atBase_iff.mp (genuine.based handle transaction found ready)
    refine ⟨?_, fun other second present ready' => ?_⟩
    · have whole : (world.context.successfulDraws + transaction.drawCount) % 2 ^ 64 =
          transaction.initialDraws + transaction.drawCount := by
        rw [base.2, Nat.mod_eq_of_lt (lt_of_le_of_lt fits (by decide))]
      simp only [Context.Stamped, whole, identity, Context.rngIdentity]
    · rcases World.find_put present with ⟨_, same⟩ | ⟨different, earlier⟩
      · cases same
      · exact absurd ready' (genuine.others found (.inl ready) different earlier)
  | @released handle transaction found quiet =>
    refine ⟨stamped.context, fun other second present ready => ?_⟩
    rcases World.find_put present with ⟨_, same⟩ | ⟨different, earlier⟩
    · cases same
    · exact absurd ready (genuine.others found quiet different earlier)

theorem World.Genuine.step (genuine : world.Genuine seed) (call : SamplingCall Source) :
    Effect (call.drawsPrepared world = true) (world.Advances numerics call) world
      (world.step numerics call).1 := by
  cases call with
  | select source cancelled => exact select_effect source cancelled genuine.increment genuine.small
  | execute sources => exact execute_effect sources genuine.increment genuine.small
  | begin allocates => exact begin_effect allocates
  | uniforms handle count cancelled => exact uniforms_effect handle count cancelled genuine.increment id
  | transactionSelect handle source cancelled =>
    exact transactionSelect_effect handle source cancelled genuine.increment
  | prepareCommit handle => exact prepareCommit_effect handle
  | publishCommit handle =>
    apply publishCommit_effect handle
    intro transaction found ready
    exact ⟨transaction, found, ready, genuine.based handle transaction found ready⟩
  | abort handle => exact abort_effect handle
  | close => exact .kept true

theorem World.Genuine.run (genuine : world.Genuine seed) (calls : List (SamplingCall Source)) :
    (world.run numerics calls).Genuine seed := by
  induction calls generalizing world with
  | nil => exact genuine
  | cons call calls induction => exact induction ((genuine.step call).genuine genuine)

def World.drawsEarly (numerics : Numerics Source Selected) : World → List (SamplingCall Source) → Bool
  | _, [] => true
  | world, call :: rest =>
    !call.drawsPrepared world && drawsEarly numerics (world.step numerics call).1 rest

theorem World.Stamped.run {calls : List (SamplingCall Source)} (stamped : world.Stamped)
    (genuine : world.Genuine seed) (early : world.drawsEarly numerics calls = true) :
    (world.run numerics calls).Stamped := by
  induction calls generalizing world with
  | nil => exact stamped
  | cons call calls induction => ?_
  rw [World.drawsEarly, Bool.and_eq_true, Bool.not_eq_true'] at early
  have effect : Effect _ _ world (world.step numerics call).1 := genuine.step call
  exact induction (effect.stamped genuine (by simp [early.1]) stamped) (effect.genuine genuine)
    early.2

/-! ## The stream of a context -/

/-- The numbers that take effect are the stream of the seed, without gaps and repeats, whatever is
called. The identity of the generator follows when nothing is drawn from prepared transactions. -/
theorem run_one_stream (numerics : Numerics Source Selected) (seed : UInt64) (strategy : Strategy)
    (maximumRows : Nat) (calls : List (SamplingCall Source)) :
    let opened : World := ⟨.opened seed strategy maximumRows, [], []⟩
    let world := opened.run numerics calls
    world.context.rngState = advance pcg world.context.successfulDraws (pcgSeed seed) ∧
      world.context.successfulDraws = world.published.length % 2 ^ 64 ∧
      world.published = outputs pcg world.published.length (pcgSeed seed) ∧
      (∀ call, ¬ world.Advances numerics call →
        (world.step numerics call).1.context.rngState = world.context.rngState ∧
        (world.step numerics call).1.context.successfulDraws = world.context.successfulDraws) ∧
      (opened.drawsEarly numerics calls = true → world.context.rngStateIdentity =
        world.context.rngIdentity world.context.rngState world.context.successfulDraws) := by
  intro opened world
  have start : opened.Genuine seed := .opened seed strategy maximumRows
  have genuine : world.Genuine seed := start.run calls
  refine ⟨?_, genuine.counted, genuine.stream.values_eq, ?_, ?_⟩
  · rw [genuine.counted, advance_mod, ← genuine.stream.last_eq]
  · intro call still
    exact (genuine.step call).unchanged genuine still
  · intro early
    have stamped : opened.Stamped := ⟨rfl, nofun⟩
    exact (stamped.run start early).context

end Identity

/-! ## Numbers behind a prepared transaction -/

@[reducible] def parityDigest : Sha256 where
  hex items :=
    let odd := items.getLast?.any fun
      | .u64 value => value % 2 == 1
      | .text _ => false
    (if odd then '1' else '0') :: List.replicate 63 '0'
  hex_valid items := by
    dsimp only
    split <;> decide

def bareNumerics : Numerics Unit Unit where
  Distribution := Unit
  validate _ := .ok ()
  greedy _ := .ok ()
  distribution _ := .ok ()
  categorical _ _ := .ok ()
  onDevice _ := false
  deviceReady _ := .ok ()
  deviceSelect _ _ := .ok ()

def bareRun [Sha256] (calls : List (SamplingCall Unit)) : World :=
  World.run bareNumerics ⟨.opened 7 .stochastic 8, [], []⟩ calls

/-- A transaction is prepared, then asked for a number, then published: the number takes effect, but
the identity is not that of the generator behind it. -/
theorem uniforms_prepared_stale : ∃ _ : Sha256,
    let world := bareRun [.begin true, .prepareCommit 0, .uniforms 0 1 fun _ => false,
      .publishCommit 0]
    world.published.length = 1 ∧ world.context.rngStateIdentity ≠
      world.context.rngIdentity world.context.rngState world.context.successfulDraws :=
  ⟨parityDigest, by decide +kernel⟩

/-- The number is drawn before its transaction is prepared. -/
theorem run_one_stream_early : ∃ _ : Sha256,
    let world := bareRun [.begin true, .uniforms 0 1 fun _ => false, .prepareCommit 0,
      .publishCommit 0]
    world.published.length = 1 ∧ world.context.rngStateIdentity =
      world.context.rngIdentity world.context.rngState world.context.successfulDraws :=
  ⟨parityDigest, by decide +kernel,
    (@run_one_stream parityDigest _ _ bareNumerics 7 .stochastic 8 _).2.2.2.2 (by decide +kernel)⟩

end Yvex.Runtime.Sampling
