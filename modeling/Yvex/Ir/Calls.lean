import Mathlib.Data.Fintype.EquivFin
import Mathlib.Order.WellFounded
import Yvex.Ir.Verify

namespace Yvex.Ir

open List Option

/-! # The call graph

The colouring pass walks from a body into nested regions and into the bodies of called functions
that are not finished yet. What it can do is said once, as a relation on the tasks of the walk; how
a walk depends on the colours it starts from follows by induction on it. -/

namespace Module

inductive Task where
  | block (block : Nat)
  | operations (ids : List Nat)
  | regions (regions : List Nat)
  | visit (function : Nat)

variable (module : Module)

/-- A walk with the remaining depth, and the colours before and behind it. -/
inductive Walks : Nat → Task → Colors → Colors → Prop
  | block : module.blocks[block]? = some found → Walks depth (.operations found.operations) first last →
      Walks (depth + 1) (.block block) first last
  | noOperation : Walks depth (.operations []) colors colors
  | operation {id : Nat} : module.operations[id]? = some operation → isCall operation = false →
      Walks depth (.regions operation.regions) first middle →
      Walks depth (.operations ids) middle last → Walks depth (.operations (id :: ids)) first last
  | call {id : Nat} : module.operations[id]? = some operation → isCall operation = true →
      module.callTarget id = some callee → depth ≠ 0 → Walks depth (.visit callee) first called →
      Walks depth (.regions operation.regions) called middle →
      Walks depth (.operations ids) middle last → Walks depth (.operations (id :: ids)) first last
  | noRegion : Walks depth (.regions []) colors colors
  | region : Walks depth (.block region) first middle → Walks depth (.regions regions) middle last →
      Walks depth (.regions (region :: regions)) first last
  | finished : colors callee = .black → Walks depth (.visit callee) colors colors
  | visit : first callee = .white → module.functions[callee]? = some function →
      Walks depth (.block function.body) (Function.update first callee .gray) last →
      Walks depth (.visit callee) first (Function.update last callee .black)

/-- A task holds a call, in itself or in a nested region. -/
inductive Mentions : Task → Nat → Prop
  | block : module.blocks[block]? = some found → Mentions (.operations found.operations) callee →
      Mentions (.block block) callee
  | call {id : Nat} : module.operations[id]? = some operation → isCall operation = true →
      module.callTarget id = some callee → Mentions (.operations (id :: ids)) callee
  | nested {id : Nat} : module.operations[id]? = some operation →
      Mentions (.regions operation.regions) callee → Mentions (.operations (id :: ids)) callee
  | laterOperation {id : Nat} : Mentions (.operations ids) callee →
      Mentions (.operations (id :: ids)) callee
  | region : Mentions (.block region) callee → Mentions (.regions (region :: regions)) callee
  | laterRegion : Mentions (.regions regions) callee → Mentions (.regions (region :: regions)) callee
  | visit : Mentions (.visit callee) callee

def Calls (caller callee : Nat) : Prop := ∃ function, module.functions[caller]? = some function ∧
    module.Mentions (.block function.body) callee

def Acyclic : Prop := ∀ function, ¬ Relation.TransGen module.Calls function function

/-! ## The pass is the walk -/

section

variable {module} {depth : Nat}

theorem visitWith_iff (block : ∀ block first last, module.blockCalls depth block first = some last ↔
      module.Walks depth (.block block) first last) (callee : Nat) (first last : Colors) :
    module.visitWith (module.blockCalls depth) callee first = some last ↔
      module.Walks depth (.visit callee) first last := by
  unfold visitWith
  constructor
  · intro ran
    split at ran
    · cases ran
    · rename_i black
      cases ran
      exact .finished black
    · rename_i white
      simp only [bind_eq_some, pure_eq_some] at ran
      obtain ⟨function, found, last, ran, rfl⟩ := ran
      exact .visit white found ((block _ _ _).mp ran)
  · intro walk
    cases walk with
    | finished black => rw [black]
    | visit white found walk =>
      rw [white]
      simp only [bind_eq_some, pure_eq_some]
      exact ⟨_, found, _, (block _ _ _).mpr walk, rfl⟩

theorem regions_iff (block : ∀ block first last, module.blockCalls depth block first = some last ↔
      module.Walks depth (.block block) first last) (regions : List Nat) (first last : Colors) :
    regions.foldlM (fun colors region => module.blockCalls depth region colors) first = some last ↔
      module.Walks depth (.regions regions) first last := by
  induction regions generalizing first with
  | nil =>
    rw [foldlM_nil, pure_eq_some]
    exact ⟨fun same => same ▸ .noRegion, fun walk => by cases walk; rfl⟩
  | cons region regions induction =>
    rw [foldlM_cons, bind_eq_some]
    constructor
    · rintro ⟨middle, one, rest⟩
      exact .region ((block _ _ _).mp one) ((induction _).mp rest)
    · intro walk
      cases walk with
      | region one rest => exact ⟨_, (block _ _ _).mpr one, (induction _).mpr rest⟩

theorem operations_iff (block : ∀ block first last, module.blockCalls depth block first = some last ↔
      module.Walks depth (.block block) first last) (ids : List Nat) (first last : Colors) :
    ids.foldlM (fun colors id => module.operationCalls depth (module.blockCalls depth) id colors)
        first = some last ↔ module.Walks depth (.operations ids) first last := by
  induction ids generalizing first with
  | nil =>
    rw [foldlM_nil, pure_eq_some]
    exact ⟨fun same => same ▸ .noOperation, fun walk => by cases walk; rfl⟩
  | cons id ids induction =>
    simp only [foldlM_cons, bind_eq_some, operationCalls, operationCall]
    constructor
    · rintro ⟨middle, ⟨operation, found, called, ran, nested⟩, rest⟩
      have nested := (regions_iff block _ _ _).mp nested
      have rest := (induction _).mp rest
      split at ran
      · rename_i isCalled
        obtain ⟨callee, target, ran⟩ := bind_eq_some_iff.mp ran
        split at ran
        · cases ran
        rename_i room
        exact .call found isCalled target room ((visitWith_iff block _ _ _).mp ran) nested rest
      · rename_i plain
        cases ran
        exact .operation found (by simpa using plain) nested rest
    · intro walk
      cases walk with
      | operation found plain nested rest =>
        exact ⟨_, ⟨_, found, _, by rw [plain]; rfl, (regions_iff block _ _ _).mpr nested⟩,
          (induction _).mpr rest⟩
      | call found isCalled target room visited nested rest =>
        refine ⟨_, ⟨_, found, _, ?_, (regions_iff block _ _ _).mpr nested⟩, (induction _).mpr rest⟩
        rw [if_pos isCalled, target, bind_some, if_neg room]
        exact (visitWith_iff block _ _ _).mpr visited

theorem blockCalls_iff (depth block : Nat) (first last : Colors) :
    module.blockCalls depth block first = some last ↔
      module.Walks depth (.block block) first last := by
  induction depth generalizing block first last with
  | zero => exact ⟨nofun, nofun⟩
  | succ depth induction =>
    rw [blockCalls, bind_eq_some]
    constructor
    · rintro ⟨found, present, ran⟩
      exact .block present ((operations_iff induction _ _ _).mp ran)
    · intro walk
      cases walk with
      | block present walk => exact ⟨_, present, (operations_iff induction _ _ _).mpr walk⟩

theorem callVisit_iff (callee : Nat) (first last : Colors) :
    module.callVisit callee first = some last ↔ module.Walks 65 (.visit callee) first last :=
  visitWith_iff (blockCalls_iff 65) callee first last

end

/-! ## What a walk leaves -/

/-- The body of a function was walked within the depth limit. -/
def Walked (callee : Nat) : Prop :=
  ∃ depth ≤ 65, ∃ function first last, module.functions[callee]? = some function ∧
    module.Walks depth (.block function.body) first last

/-- Finished functions were walked, and call finished ones only. -/
structure Settled (colors : Colors) : Prop where
  walked : ∀ {callee}, colors callee = .black → module.Walked callee
  closed : ∀ {caller callee}, colors caller = .black → module.Calls caller callee →
    colors callee = .black
  founded : ∀ {callee}, colors callee = .black → Acc (flip module.Calls) callee

variable {module} {depth : Nat} {task : Task} {first last : Colors}

theorem Settled.grayed (settled : module.Settled first) (white : first callee = .white) :
    module.Settled (Function.update first callee .gray) := by
  obtain ⟨walked, closed, founded⟩ := settled
  constructor <;> intros <;> simp only [Function.update_apply] at * <;> grind

theorem Settled.blackened (settled : module.Settled last) (walked : module.Walked callee)
    (calls : ∀ other, module.Calls callee other → last other = .black) :
    module.Settled (Function.update last callee .black) := by
  have founded : Acc (flip module.Calls) callee :=
    .intro _ fun other called => settled.founded (calls other called)
  obtain ⟨walked, closed, founded⟩ := settled
  constructor <;> intros <;> simp only [Function.update_apply] at * <;> grind

/-- A walk keeps what is finished, and finishes all that its task calls. -/
structure Leaves (module : Module) (task : Task) (first last : Colors) : Prop where
  kept : ∀ {callee}, first callee = .black → last callee = .black
  gray : ∀ {callee}, last callee = .gray → first callee = .gray
  called : ∀ {callee}, module.Mentions task callee → last callee = .black
  settled : module.Settled last

theorem Leaves.then {next : Task} (one : module.Leaves task first middle)
    (two : module.Leaves next middle last)
    (both : ∀ {callee}, module.Mentions whole callee →
      module.Mentions task callee ∨ module.Mentions next callee) :
    module.Leaves whole first last where
  kept black := two.kept (one.kept black)
  gray isGray := one.gray (two.gray isGray)
  called mentions := (both mentions).elim (fun here => two.kept (one.called here)) two.called
  settled := two.settled

theorem Walks.leaves (walk : module.Walks depth task first last) (within : depth ≤ 65)
    (settled : module.Settled first) : module.Leaves task first last := by
  induction walk with
  | block found _ induction =>
    have leaves := induction (by omega) settled
    refine { leaves with called := fun mentions => ?_ }
    cases mentions with
    | block same mentions =>
      cases found.symm.trans same
      exact leaves.called mentions
  | noOperation => exact ⟨id, id, nofun, settled⟩
  | operation found plain _ _ nested rest =>
    have inner := nested within settled
    refine inner.then (rest within inner.settled) fun mentions => ?_
    cases mentions with
    | call same isCalled =>
      cases found.symm.trans same
      cases plain.symm.trans isCalled
    | nested same mentions =>
      cases found.symm.trans same
      exact .inl mentions
    | laterOperation mentions => exact .inr mentions
  | call found isCalled target _ _ _ _ visited nested rest =>
    have call := visited within settled
    have inner := nested within call.settled
    have outer := rest within inner.settled
    refine ⟨fun black => outer.kept (inner.kept (call.kept black)),
      fun isGray => call.gray (inner.gray (outer.gray isGray)), fun mentions => ?_, outer.settled⟩
    cases mentions with
    | call same _ again =>
      cases target.symm.trans again
      exact outer.kept (inner.kept (call.called .visit))
    | nested same mentions =>
      cases found.symm.trans same
      exact outer.kept (inner.called mentions)
    | laterOperation mentions => exact outer.called mentions
  | noRegion => exact ⟨id, id, nofun, settled⟩
  | region _ _ one rest =>
    have inner := one within settled
    refine inner.then (rest within inner.settled) fun mentions => ?_
    cases mentions with
    | region mentions => exact .inl mentions
    | laterRegion mentions => exact .inr mentions
  | finished black =>
    refine ⟨id, id, fun mentions => ?_, settled⟩
    cases mentions
    exact black
  | @visit first callee function depth last white found walk induction =>
    have leaves := induction within (settled.grayed white)
    refine ⟨fun black => ?_, fun isGray => ?_, fun mentions => ?_,
      leaves.settled.blackened ⟨_, within, _, _, _, found, walk⟩ fun other calls => ?_⟩
    · have kept := @leaves.kept
      simp only [Function.update_apply] at kept ⊢
      grind
    · have gray := @leaves.gray
      simp only [Function.update_apply] at gray isGray
      grind
    · cases mentions
      exact Function.update_self ..
    · obtain ⟨_, again, mentions⟩ := calls
      cases found.symm.trans again
      exact leaves.called mentions

/-! ## Walks from other colours -/

/-- A walk whose calls are all finished meets nothing else, at any depth that is enough. -/
theorem Walks.of_finished (walk : module.Walks depth task first last) (more : depth ≤ limit)
    (finished : ∀ {callee}, module.Mentions task callee → colors callee = .black) :
    module.Walks limit task colors colors := by
  induction walk generalizing limit with
  | block found _ induction =>
    obtain ⟨limit, rfl⟩ := Nat.exists_eq_add_of_lt more
    exact .block found (induction (by omega) fun mentions => finished (.block found mentions))
  | noOperation => exact .noOperation
  | operation found plain _ _ nested rest =>
    exact .operation found plain (nested more fun mentions => finished (.nested found mentions))
      (rest more fun mentions => finished (.laterOperation mentions))
  | call found isCalled target room _ _ _ _ nested rest =>
    exact .call found isCalled target (by omega) (.finished (finished (.call found isCalled target)))
      (nested more fun mentions => finished (.nested found mentions))
      (rest more fun mentions => finished (.laterOperation mentions))
  | noRegion => exact .noRegion
  | region _ _ one rest =>
    exact .region (one more fun mentions => finished (.region mentions))
      (rest more fun mentions => finished (.laterRegion mentions))
  | finished => exact .finished (finished .visit)
  | visit => exact .finished (finished .visit)

/-- Colours from which a walk has no more to do: finished functions stay finished, and no other
one is on the stack. -/
def Below (first second : Colors) : Prop :=
  ∀ callee, first callee = .gray ∨ second callee = .black ∨
    first callee = .white ∧ second callee = .white

theorem Below.update (below : Below first second) (same : color = .gray ∨ other = .black) :
    Below (Function.update first callee color) (Function.update second callee other) := by
  intro place
  have := below place
  simp only [Function.update_apply]
  grind

theorem Below.of_finished (below : Below first second) (black : second callee = .black) :
    Below (Function.update first callee color) second := by
  intro place
  have := below place
  simp only [Function.update_apply]
  grind

/-- A walk behind which all its calls are finished already adds nothing. -/
theorem Walks.below_of_finished (walk : module.Walks depth task first last)
    (settled : module.Settled second) (below : Below first second)
    (finished : ∀ {callee}, module.Mentions task callee → second callee = .black) :
    Below last second := by
  induction walk with
  | block found _ induction => exact induction below fun mentions => finished (.block found mentions)
  | noOperation => exact below
  | operation found plain _ _ nested rest =>
    exact rest (nested below fun mentions => finished (.nested found mentions))
      fun mentions => finished (.laterOperation mentions)
  | call found isCalled target _ _ _ _ visited nested rest =>
    refine rest (nested (visited below fun mentions => ?_)
      fun mentions => finished (.nested found mentions))
      fun mentions => finished (.laterOperation mentions)
    cases mentions
    exact finished (.call found isCalled target)
  | noRegion => exact below
  | region _ _ one rest =>
    exact rest (one below fun mentions => finished (.region mentions))
      fun mentions => finished (.laterRegion mentions)
  | finished => exact below
  | @visit first callee function depth last white found _ induction =>
    have black : second callee = .black := finished .visit
    exact (induction (below.of_finished black)
      fun mentions => settled.closed black ⟨_, found, mentions⟩).of_finished black

/-- A walk goes through as well where more functions are finished. -/
theorem Walks.mono (walk : module.Walks depth task first last) (within : depth ≤ 65)
    (settled : module.Settled second) (below : Below first second) :
    ∃ final, module.Walks depth task second final ∧ Below last final := by
  induction walk generalizing second with
  | block found _ induction =>
    obtain ⟨final, walk, below⟩ := induction (by omega) settled below
    exact ⟨final, .block found walk, below⟩
  | noOperation => exact ⟨second, .noOperation, below⟩
  | operation found plain _ _ nested rest =>
    obtain ⟨middle, inner, below⟩ := nested within settled below
    obtain ⟨final, outer, below⟩ := rest within (inner.leaves within settled).settled below
    exact ⟨final, .operation found plain inner outer, below⟩
  | call found isCalled target room _ _ _ visited nested rest =>
    obtain ⟨called, call, below⟩ := visited within settled below
    have settled := (call.leaves within settled).settled
    obtain ⟨middle, inner, below⟩ := nested within settled below
    obtain ⟨final, outer, below⟩ := rest within (inner.leaves within settled).settled below
    exact ⟨final, .call found isCalled target room call inner outer, below⟩
  | noRegion => exact ⟨second, .noRegion, below⟩
  | region _ _ one rest =>
    obtain ⟨middle, inner, below⟩ := one within settled below
    obtain ⟨final, outer, below⟩ := rest within (inner.leaves within settled).settled below
    exact ⟨final, .region inner outer, below⟩
  | finished black =>
    refine ⟨second, .finished ?_, below⟩
    rcases below _ with gray | finished | ⟨white, _⟩
    · cases black.symm.trans gray
    · exact finished
    · cases black.symm.trans white
  | @visit first callee function depth last white found walk induction =>
    rcases below callee with gray | black | ⟨_, whiteToo⟩
    · cases white.symm.trans gray
    · refine ⟨second, .finished black, ?_⟩
      refine (Walks.visit white found walk).below_of_finished settled below fun mentions => ?_
      cases mentions
      exact black
    · obtain ⟨final, inner, below⟩ := induction within (settled.grayed whiteToo)
        (below.update (.inl rfl))
      exact ⟨_, .visit whiteToo found inner, below.update (.inr rfl)⟩

/-! ## The verdict -/

/-- The loop of `callsVerify` over another order. -/
def callsIn (module : Module) (order : List Nat) (colors : Colors) : Option Colors :=
  order.foldlM (fun colors function => module.callVisit function colors) colors

/-- The visit of a function when none is finished. -/
def visitedFirst (module : Module) (function : Nat) : Bool :=
  (module.callVisit function fun _ => .white).isSome

/-- The visit of a function when all others are finished. -/
def visitedLast (module : Module) (function : Nat) : Bool :=
  (module.callVisit function (Function.update (fun _ => .black) function .white)).isSome

/-- Between two visits no function is on the stack. -/
structure Rests (module : Module) (colors : Colors) : Prop extends module.Settled colors where
  ungrayed : ∀ {callee}, colors callee ≠ .gray

theorem rests_white : module.Rests fun _ => .white := ⟨⟨nofun, nofun, nofun⟩, nofun⟩

theorem Rests.visit (rests : module.Rests first) (ran : module.callVisit callee first = some last) :
    module.Rests last ∧ last callee = .black ∧
      ∀ {other}, first other = .black → last other = .black := by
  have leaves := ((callVisit_iff ..).mp ran).leaves le_rfl rests.toSettled
  exact ⟨⟨leaves.settled, fun gray => rests.ungrayed (leaves.gray gray)⟩, leaves.called .visit,
    leaves.kept⟩

theorem Rests.callsIn (rests : module.Rests first) (ran : module.callsIn order first = some last) :
    module.Rests last ∧ (∀ callee ∈ order, last callee = .black) ∧
      ∀ {other}, first other = .black → last other = .black := by
  induction order generalizing first with
  | nil =>
    cases ran
    exact ⟨rests, nofun, id⟩
  | cons callee order induction =>
    rw [Module.callsIn, foldlM_cons, bind_eq_some] at ran
    obtain ⟨middle, one, ran⟩ := ran
    obtain ⟨rests, black, kept⟩ := rests.visit one
    obtain ⟨rests, finished, later⟩ := induction rests ran
    exact ⟨rests, forall_mem_cons.mpr ⟨later black, finished⟩, fun old => later (kept old)⟩

theorem functionFind_bound {name : Bytes} (found : module.functionFind name = some index) :
    ∃ function, module.functions[index]? = some function ∧ function.symbol = name := by
  unfold functionFind at found
  rw [findIdx?_eq_some_iff_getElem] at found
  rcases found with ⟨bound, same, _⟩
  exact ⟨_, getElem?_eq_getElem bound, by simpa using same⟩

theorem callTarget_bound {id : Nat} (target : module.callTarget id = some callee) :
    callee < module.functions.length := by
  unfold callTarget at target
  rw [bind_eq_some_iff] at target
  rcases target with ⟨item, _, target⟩
  rw [bind_eq_some_iff] at target
  rcases target with ⟨name, _, target⟩
  rcases functionFind_bound target with ⟨function, found, _⟩
  exact index_lt found

theorem Mentions.bound (mentions : module.Mentions task callee)
    (held : ∀ function, task ≠ .visit function) : callee < module.functions.length := by
  induction mentions with
  | call _ _ target => exact callTarget_bound target
  | visit => exact absurd rfl (held _)
  | _ => simp_all

theorem Calls.callee_lt (calls : module.Calls caller callee) : callee < module.functions.length := by
  obtain ⟨_, _, mentions⟩ := calls
  exact mentions.bound nofun

theorem Calls.caller_lt (calls : module.Calls caller callee) : caller < module.functions.length := by
  obtain ⟨_, found, _⟩ := calls
  exact index_lt found

section

variable (whole : ∀ function < module.functions.length, function ∈ order)
  (accepted : (module.callsIn order fun _ => .white).isSome = true)

include whole accepted

theorem acyclic_of_callsIn : module.Acyclic := by
  obtain ⟨last, ran⟩ := isSome_iff_exists.mp accepted
  obtain ⟨rests, finished, _⟩ := rests_white.callsIn ran
  intro function cyclic
  have bound : function < module.functions.length := by
    obtain ⟨_, calls, _⟩ := Relation.TransGen.head'_iff.mp cyclic
    exact calls.caller_lt
  have founded := rests.founded (finished function (whole function bound))
  clear bound
  induction founded with
  | intro function _ induction =>
    obtain ⟨next, calls, back⟩ := Relation.TransGen.head'_iff.mp cyclic
    exact induction next calls (.tail' back calls)

theorem visitedLast_of_callsIn (bound : function < module.functions.length) :
    module.visitedLast function = true := by
  obtain ⟨last, ran⟩ := isSome_iff_exists.mp accepted
  obtain ⟨rests, finished, _⟩ := rests_white.callsIn ran
  obtain ⟨depth, within, found, _, _, present, walk⟩ :=
    rests.walked (finished function (whole function bound))
  have acyclic := acyclic_of_callsIn whole accepted
  refine isSome_iff_exists.mpr ⟨_, (callVisit_iff ..).mpr (.visit (Function.update_self ..) present
    (walk.of_finished within fun {callee} mentions => ?_))⟩
  have other : callee ≠ function := by
    rintro rfl
    exact acyclic callee (.single ⟨_, present, mentions⟩)
  simp [other]

end

theorem callsIn_of_visitedFirst (first : ∀ function ∈ order, module.visitedFirst function = true) :
    (module.callsIn order fun _ => .white).isSome = true := by
  have each : ∀ function ∈ order, ∀ before, module.Rests before →
      ∃ after, module.callVisit function before = some after ∧ module.Rests after := by
    intro function member before rests
    obtain ⟨_, ran⟩ := isSome_iff_exists.mp (first function member)
    obtain ⟨after, walk, _⟩ := ((callVisit_iff ..).mp ran).mono le_rfl rests.toSettled fun callee => by
      cases color : before callee with
      | gray => exact absurd color rests.ungrayed
      | white => exact .inr (.inr ⟨rfl, rfl⟩)
      | black => exact .inr (.inl rfl)
    have ran := (callVisit_iff ..).mpr walk
    exact ⟨after, ran, (rests.visit ran).1⟩
  obtain ⟨last, ran, _⟩ := foldlM_runs _ each rests_white
  exact isSome_iff_exists.mpr ⟨last, ran⟩

theorem visitedFirst_of_callsIn
    (accepted : (module.callsIn (function :: order) fun _ => .white).isSome = true) :
    module.visitedFirst function = true := by
  obtain ⟨last, ran⟩ := isSome_iff_exists.mp accepted
  rw [callsIn, foldlM_cons, bind_eq_some] at ran
  obtain ⟨middle, one, _⟩ := ran
  exact isSome_iff_exists.mpr ⟨middle, one⟩

/-- The finished functions are those of the order. -/
structure Ordered (module : Module) (order : List Nat) (last : Colors) : Prop where
  ran : module.callsIn order (fun _ => .white) = some last
  nodup : order.Nodup
  bound : ∀ function ∈ order, function < module.functions.length
  only : ∀ function, last function = .black → function ∈ order

theorem Ordered.next (ordered : module.Ordered order last)
    (alone : module.visitedLast function = true) (bound : function < module.functions.length)
    (apart : function ∉ order) (callees : ∀ callee, module.Calls function callee → callee ∈ order) :
    ∃ next, module.Ordered (order ++ [function]) next := by
  obtain ⟨rests, finished, _⟩ := rests_white.callsIn ordered.ran
  have white : last function = .white := by
    cases color : last function with
    | white => rfl
    | gray => exact absurd color rests.ungrayed
    | black => exact absurd (ordered.only function color) apart
  obtain ⟨_, ran⟩ := isSome_iff_exists.mp alone
  have walk := (callVisit_iff ..).mp ran
  cases walk with
  | finished black => simp at black
  | visit _ found walk =>
    have visit := Walks.visit white found (walk.of_finished le_rfl fun {callee} mentions => by
      have member := callees callee ⟨_, found, mentions⟩
      rw [Function.update_of_ne (by rintro rfl; exact apart member)]
      exact finished callee member)
    refine ⟨Function.update (Function.update last function .gray) function .black, ?_, ?_, ?_, ?_⟩
    · rw [callsIn, foldlM_append, bind_eq_some]
      exact ⟨last, ordered.ran, by simpa using (callVisit_iff ..).mpr visit⟩
    · exact nodup_append.mpr ⟨ordered.nodup, nodup_singleton _, by
        rintro one member other single rfl
        exact apart (mem_singleton.mp single ▸ member)⟩
    · simpa [or_imp, forall_and, bound] using ordered.bound
    · intro other black
      by_cases same : other = function
      · simp [same]
      · rw [Function.update_of_ne same, Function.update_of_ne same] at black
        exact mem_append_left _ (ordered.only other black)

/-- Some order puts every callee in front of its callers. -/
theorem exists_callsIn (acyclic : module.Acyclic)
    (alone : ∀ function < module.functions.length, module.visitedLast function = true) :
    ∃ order, order ~ range module.functions.length ∧
      (module.callsIn order fun _ => .white).isSome = true := by
  have founded : WellFounded fun callee caller : Fin module.functions.length =>
      Relation.TransGen module.Calls caller callee := by
    have : IsTrans (Fin module.functions.length) fun callee caller =>
      Relation.TransGen module.Calls caller callee := ⟨fun _ _ _ one two => two.trans one⟩
    have : Std.Irrefl fun callee caller : Fin module.functions.length =>
      Relation.TransGen module.Calls caller callee := ⟨fun function => acyclic function⟩
    exact Finite.wellFounded_of_trans_of_irrefl _
  have grows : ∀ count ≤ module.functions.length, ∃ order last, module.Ordered order last ∧
      order.length = count := by
    intro count
    induction count with
    | zero => exact fun _ => ⟨[], _, ⟨rfl, nodup_nil, nofun, nofun⟩, rfl⟩
    | succ count induction =>
      intro fits
      obtain ⟨order, last, ordered, length⟩ := induction (by omega)
      have missing : ∃ place : Fin module.functions.length, place.val ∉ order := by
        by_contra all
        have inside : range module.functions.length ⊆ order := fun place member => by
          by_contra apart
          exact all ⟨⟨place, mem_range.mp member⟩, apart⟩
        have longer := (subperm_of_subset nodup_range inside).length_le
        rw [length_range] at longer
        omega
      obtain ⟨function, apart, least⟩ := founded.has_min {place | place.val ∉ order} missing
      obtain ⟨next, ordered⟩ := ordered.next (alone function function.2) function.2 apart
        fun callee calls => by_contra fun out => least ⟨callee, calls.callee_lt⟩ out (.single calls)
      exact ⟨_, next, ordered, by rw [length_append, length, length_singleton]⟩
  obtain ⟨order, last, ordered, length⟩ := grows _ le_rfl
  refine ⟨order, ?_, isSome_iff_exists.mpr ⟨last, ordered.ran⟩⟩
  refine (subperm_of_subset ordered.nodup fun place member =>
    mem_range.mpr (ordered.bound place member)).perm_of_length_le ?_
  rw [length, length_range]

end Module

end Yvex.Ir
