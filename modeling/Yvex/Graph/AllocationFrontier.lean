import Mathlib.Algebra.Order.BigOperators.Group.List
import Mathlib.Algebra.Order.Group.Nat
import Yvex.Graph.Allocation

namespace Yvex.Graph

open List Yvex.Except

/-! # The allocation search finds the frontier

Every choice of options for the first groups has its two totals. After each group the search
holds exactly the choices that can be completed within the budget and that no other choice of
the same groups beats, so its last rows are the frontier over all choices. -/

def chosenTotal (measure : AllocationGroup → Bool → Nat) (groups : List AllocationGroup)
    (choices : Nat) : Nat :=
  (groups.zipIdx.map fun entry => measure entry.1 (choices.testBit entry.2)).sum

def allocated (fixedBytes : Nat) (groups : List AllocationGroup) (choices : Nat) : Allocation where
  choices := choices
  encodedBytes := fixedBytes + chosenTotal AllocationGroup.encodedBytes groups choices
  sourceElements := chosenTotal AllocationGroup.sourceElements groups choices

def withOption (choices index : Nat) (option : Bool) : Nat :=
  if option then choices ||| 1 <<< index else choices

section

variable (below : choices < 2 ^ index)
include below

variable (option : Bool)

theorem withOption_eq : withOption choices index option = option.toNat * 2 ^ index + choices := by
  cases option with
  | false => simp [withOption]
  | true =>
    simp only [withOption, if_true, Bool.toNat_true, one_mul]
    rw [Nat.or_comm, ← Nat.shiftLeft_add_eq_or_of_lt below 1, Nat.one_shiftLeft]

theorem withOption_lt : withOption choices index option < 2 ^ (index + 1) := by
  rw [withOption_eq below]
  cases option <;> simp <;> omega

theorem testBit_withOption_self : (withOption choices index option).testBit index = option := by
  rw [withOption_eq below]
  cases option with
  | false => simpa using Nat.testBit_lt_two_pow below
  | true => simp [Nat.testBit_two_pow_add_eq, Nat.testBit_lt_two_pow below]

theorem testBit_withOption_of_lt (before : earlier < index) :
    (withOption choices index option).testBit earlier = choices.testBit earlier := by
  rw [withOption_eq below]
  cases option with
  | false => simp
  | true => simpa using Nat.testBit_two_pow_add_gt before choices

end

theorem exists_withOption (below : choices < 2 ^ (index + 1)) :
    ∃ fewer < 2 ^ index, ∃ option, choices = withOption fewer index option := by
  by_cases low : choices < 2 ^ index
  · exact ⟨choices, low, false, rfl⟩
  refine ⟨choices - 2 ^ index, by omega, true, ?_⟩
  rw [withOption_eq (by omega)]
  simp
  omega

theorem chosenTotal_append (below : choices < 2 ^ groups.length)
    (measure : AllocationGroup → Bool → Nat) (group : AllocationGroup) (option : Bool) :
    chosenTotal measure (groups ++ [group]) (withOption choices groups.length option) =
      chosenTotal measure groups choices + measure group option := by
  unfold chosenTotal
  rw [zipIdx_append, map_append, sum_append]
  congr 1
  · congr 1
    apply map_congr_left
    rintro ⟨entry, position⟩ member
    have bound := snd_lt_of_mem_zipIdx member
    rw [testBit_withOption_of_lt below option bound]
  · simp [testBit_withOption_self below]

theorem total_least_le (groups : List AllocationGroup) (choices : Nat) :
    total AllocationGroup.least groups ≤
      chosenTotal AllocationGroup.encodedBytes groups choices := by
  unfold chosenTotal total
  have listed : groups.map AllocationGroup.least =
      groups.zipIdx.map fun entry => entry.1.least := by
    conv_lhs => rw [← zipIdx_map_fst 0 groups]
    rw [map_map]
    rfl
  rw [listed]
  exact sum_le_sum fun entry _ => entry.1.least_le _

theorem exists_chosenTotal_eq (groups : List AllocationGroup) :
    ∃ choices < 2 ^ groups.length, chosenTotal AllocationGroup.encodedBytes groups choices =
      total AllocationGroup.least groups := by
  induction groups using List.reverseRecOn with
  | nil => exact ⟨0, by decide, rfl⟩
  | append_singleton groups group induction => ?_
  rcases induction with ⟨choices, below, least⟩
  rcases group.exists_eq_least with ⟨option, equal⟩
  refine ⟨withOption choices groups.length option, ?_, ?_⟩
  · rw [length_append]
    exact withOption_lt below option
  · rw [chosenTotal_append below, least, equal, total_append]

theorem allocated_append (fixedBytes : Nat) (below : choices < 2 ^ groups.length)
    (group : AllocationGroup) (option : Bool) :
    allocated fixedBytes (groups ++ [group]) (withOption choices groups.length option) =
      { choices := withOption choices groups.length option
        encodedBytes :=
          (allocated fixedBytes groups choices).encodedBytes + group.encodedBytes option
        sourceElements :=
          (allocated fixedBytes groups choices).sourceElements + group.sourceElements option } := by
  unfold allocated
  rw [chosenTotal_append below, chosenTotal_append below]
  simp only [add_assoc]

section

variable (request : AllocationRequest)

def Viable (done rest : List AllocationGroup) (choices : Nat) : Prop := choices < 2 ^ done.length ∧
    (allocated request.fixedBytes done choices).encodedBytes +
      total AllocationGroup.least rest ≤ request.maximumEncodedBytes

instance (done rest : List AllocationGroup) (choices : Nat) :
    Decidable (Viable request done rest choices) := by
  unfold Viable
  infer_instance

def ViableRow (done rest : List AllocationGroup) (row : Allocation) : Prop :=
  ∃ choices, Viable request done rest choices ∧ row = allocated request.fixedBytes done choices

/-- The choice can be completed and no such choice beats it. -/
def OnFrontier (done rest : List AllocationGroup) (choices : Nat) : Prop :=
  Viable request done rest choices ∧ ∀ other < 2 ^ done.length, Viable request done rest other →
      ¬allocationOrder.Beats (allocated request.fixedBytes done other)
        (allocated request.fixedBytes done choices)

instance (done rest : List AllocationGroup) (choices : Nat) :
    Decidable (OnFrontier request done rest choices) := by
  unfold OnFrontier
  infer_instance

def frontierSize (done rest : List AllocationGroup) : Nat :=
  (List.range (2 ^ done.length)).countP (OnFrontier request done rest)

variable {request}

theorem unbeaten_viableRow : allocationOrder.Unbeaten (ViableRow request done rest) row ↔
      ∃ choices, OnFrontier request done rest choices ∧
        row = allocated request.fixedBytes done choices := by
  constructor
  · rintro ⟨⟨choices, viable, rfl⟩, unbeaten⟩
    refine ⟨choices, ⟨viable, ?_⟩, rfl⟩
    intro other _ among
    exact unbeaten _ ⟨other, among, rfl⟩
  rintro ⟨choices, ⟨viable, unbeaten⟩, rfl⟩
  refine ⟨⟨choices, viable, rfl⟩, ?_⟩
  rintro _ ⟨other, among, rfl⟩
  exact unbeaten other among.1 among

theorem covered_viableRow : allocationOrder.Covered (ViableRow request done rest) := by
  have listed : ViableRow request done rest = (· ∈ ((List.range (2 ^ done.length)).filter
      (Viable request done rest)).map (allocated request.fixedBytes done)) := by
    funext row
    rw [eq_iff_iff]
    simp only [mem_map, mem_filter, mem_range, decide_eq_true_eq]
    constructor
    · rintro ⟨choices, viable, rfl⟩
      exact ⟨choices, ⟨viable.1, viable⟩, rfl⟩
    · rintro ⟨choices, ⟨_, viable⟩, rfl⟩
      exact ⟨choices, viable, rfl⟩
  rw [listed]
  exact Objective.covered_of_list _

def extensions (request : AllocationRequest) (group : AllocationGroup) (index remaining : Nat) :
    List (Allocation → Option Allocation) :=
  [extension request group index remaining false, extension request group index remaining true]

theorem mem_extensions : extend ∈ extensions request group index remaining ↔
      ∃ option, extend = extension request group index remaining option := by
  simp [extensions]

theorem extension_eq_some : extension request group index remaining option row = some extended ↔
      row.encodedBytes + group.encodedBytes option + remaining ≤ request.maximumEncodedBytes ∧
        extended = {
          choices := withOption row.choices index option
          encodedBytes := row.encodedBytes + group.encodedBytes option
          sourceElements := row.sourceElements + group.sourceElements option } := by
  unfold extension withOption
  split
  · rename_i within
    simp [within, eq_comm]
  · rename_i beyond
    simp [beyond]

theorem extended_viableRow (group : AllocationGroup) : Objective.Extended
        (extensions request group done.length (total AllocationGroup.least rest))
        (ViableRow request done (group :: rest)) = ViableRow request (done ++ [group]) rest := by
  funext row
  rw [eq_iff_iff]
  constructor
  · rintro ⟨_, ⟨choices, viable, rfl⟩, extend, listed, made⟩
    rcases mem_extensions.mp listed with ⟨option, rfl⟩
    rcases extension_eq_some.mp made with ⟨within, rfl⟩
    have appended := allocated_append request.fixedBytes viable.1 group option
    refine ⟨withOption choices done.length option, ⟨?_, ?_⟩, appended.symm⟩
    · rw [length_append]
      exact withOption_lt viable.1 option
    · rw [appended]
      exact within
  rintro ⟨choices, ⟨below, within⟩, rfl⟩
  rw [length_append] at below
  rcases exists_withOption below with ⟨fewer, bound, option, rfl⟩
  have appended := allocated_append request.fixedBytes bound group option
  rw [appended] at within ⊢
  refine ⟨_, ⟨fewer, ⟨bound, ?_⟩, rfl⟩, _, mem_extensions.mpr ⟨option, rfl⟩,
    extension_eq_some.mpr ⟨within, rfl⟩⟩
  have least := group.least_le option
  rw [total_cons]
  simp only at within
  omega

theorem monotone_extension (group : AllocationGroup) (remaining : Nat) (option : Bool) :
    allocationOrder.Monotone (ViableRow request done rest)
      (extension request group done.length remaining option) := by
  rintro row other extended ⟨choices, viable, rfl⟩ ⟨others, among, rfl⟩ beats made
  rcases extension_eq_some.mp made with ⟨within, rfl⟩
  rcases beats with ⟨cost, value, tag⟩
  simp only [allocationOrder] at cost value tag
  refine ⟨_, extension_eq_some.mpr ⟨by omega, rfl⟩, ?_⟩
  simp only [Objective.Beats, allocationOrder]
  refine ⟨by omega, by omega, fun sameCost sameValue => ?_⟩
  have less := tag (by omega) (by omega)
  simp only [allocated] at less ⊢
  rw [withOption_eq viable.1, withOption_eq among.1]
  omega

structure Holds (request : AllocationRequest) (done rest : List AllocationGroup)
    (current : List Allocation) : Prop where
  mem_iff : ∀ row, row ∈ current ↔ allocationOrder.Unbeaten (ViableRow request done rest) row
  ascending : current.Pairwise fun row other =>
    row.encodedBytes < other.encodedBytes ∧ row.sourceElements < other.sourceElements

theorem Holds.length_eq (holds : Holds request done rest current) :
    current.length = frontierSize request done rest := by
  have distinct : current.Nodup :=
    holds.ascending.imp fun ordered same => by
      rw [same] at ordered
      exact lt_irrefl _ ordered.1
  have listed : (((List.range (2 ^ done.length)).filter (OnFrontier request done rest)).map
      (allocated request.fixedBytes done)).Nodup := by
    refine (nodup_range.filter _).map fun choices other same => ?_
    exact congrArg Allocation.choices same
  have permuted := (perm_ext_iff_of_nodup distinct listed).mpr fun row => by
    rw [holds.mem_iff, unbeaten_viableRow]
    simp only [mem_map, mem_filter, mem_range, decide_eq_true_eq]
    constructor
    · rintro ⟨choices, frontier, rfl⟩
      exact ⟨choices, ⟨frontier.1.1, frontier⟩, rfl⟩
    · rintro ⟨choices, ⟨_, frontier⟩, rfl⟩
      exact ⟨choices, frontier, rfl⟩
  rw [permuted.length_eq, length_map, frontierSize, countP_eq_length_filter]

theorem Holds.step (holds : Holds request done (group :: rest) current) :
    Holds request (done ++ [group]) rest (allocationOrder.rising none ((current.flatMap fun row =>
        (extension request group done.length (total AllocationGroup.least rest) false row).toList ++
          (extension request group done.length (total AllocationGroup.least rest)
            true row).toList).insertionSort allocationOrder.Precedes)) := by
  set next := current.flatMap _ with expanded
  have sorted := pairwise_insertionSort allocationOrder.Precedes next
  refine ⟨fun row => ?_, Objective.pairwise_rising sorted⟩
  have members : (· ∈ next.insertionSort allocationOrder.Precedes) = Objective.Extended
      (extensions request group done.length (total AllocationGroup.least rest))
      (allocationOrder.Unbeaten (ViableRow request done (group :: rest))) := by
    funext row
    rw [mem_insertionSort, mem_flatMap]
    simp only [mem_append, Option.mem_toList, holds.mem_iff, Objective.Extended, extensions,
      mem_cons, not_mem_nil, or_false, exists_eq_or_imp, exists_eq_left]
  rw [Objective.mem_rising sorted, members, Objective.unbeaten_extended ?_ covered_viableRow,
    extended_viableRow]
  · simp
  intro extend listed
  rcases mem_extensions.mp listed with ⟨option, rfl⟩
  exact monotone_extension group _ option

def Passable (request : AllocationRequest) (done : List AllocationGroup)
    (group : AllocationGroup) (rest : List AllocationGroup) : Prop :=
  (∀ choices < 2 ^ done.length, OnFrontier request done (group :: rest) choices →
    ∀ option, Countable group (total AllocationGroup.least rest)
      (allocated request.fixedBytes done choices) option) ∧
    frontierSize request (done ++ [group]) rest ≤ request.maximumStates

def followed : List AllocationGroup → List (AllocationGroup × Nat)
  | [] => []
  | group :: groups => (group, total AllocationGroup.least groups) :: followed groups

theorem Holds.allocationSearch_cons (holds : Holds request done (group :: rest) current) :
    ∃ kept, Holds request (done ++ [group]) rest kept ∧ ∀ result,
      allocationSearch request done.length current (followed (group :: rest)) = .ok result ↔
        Passable request done group rest ∧
          allocationSearch request (done ++ [group]).length kept (followed rest) = .ok result := by
  have countable : (∀ row ∈ current, ∀ option,
      Countable group (total AllocationGroup.least rest) row option) ↔
        ∀ choices < 2 ^ done.length, OnFrontier request done (group :: rest) choices →
          ∀ option, Countable group (total AllocationGroup.least rest)
            (allocated request.fixedBytes done choices) option := by
    simp only [holds.mem_iff, unbeaten_viableRow]
    constructor
    · intro all choices _ frontier option
      exact all _ ⟨choices, frontier, rfl⟩ option
    · rintro all _ ⟨choices, frontier, rfl⟩ option
      exact all choices frontier.1.1 frontier option
  refine ⟨_, holds.step, fun result => ?_⟩
  rw [followed, allocationSearch, Passable, ← countable, ← holds.step.length_eq]
  simp only [bind_eq_ok, allocationExpand_eq_ok, allocationKeep_eq_ok (Nat.zero_le _),
    Nat.zero_add, length_append]
  constructor
  · rintro ⟨_, ⟨counted, rfl⟩, _, ⟨rfl, room⟩, ran⟩
    exact ⟨⟨counted, room⟩, ran⟩
  · rintro ⟨⟨counted, room⟩, ran⟩
    exact ⟨_, ⟨counted, rfl⟩, _, ⟨rfl, room⟩, ran⟩

def Searchable (request : AllocationRequest) (done groups : List AllocationGroup) : Prop :=
  ∀ before group after, groups = before ++ group :: after →
    Passable request (done ++ before) group after

theorem searchable_cons : Searchable request done (group :: rest) ↔
      Passable request done group rest ∧ Searchable request (done ++ [group]) rest := by
  constructor
  · intro searchable
    refine ⟨by simpa using searchable [] group rest rfl, ?_⟩
    rintro before next after rfl
    simpa using searchable (group :: before) next after rfl
  rintro ⟨passable, searchable⟩ before next after split
  cases before with
  | nil =>
    cases split
    simpa using passable
  | cons first before =>
    cases split
    simpa using searchable before next after rfl

theorem Holds.allocationSearch (holds : Holds request done rest current) :
    (Searchable request done rest ↔ ∃ result,
      allocationSearch request done.length current (followed rest) = .ok result) ∧
      ∀ result, allocationSearch request done.length current (followed rest) = .ok result →
        Holds request (done ++ rest) [] result := by
  induction rest generalizing done current with
  | nil =>
    rw [append_nil]
    refine ⟨iff_of_true ?_ ⟨current, rfl⟩, ?_⟩
    · intro before group after split
      cases before <;> cases split
    · intro result ran
      cases ran
      exact holds
  | cons group rest induction =>
    rcases holds.allocationSearch_cons with ⟨kept, held, stepped⟩
    rcases induction held with ⟨succeeds, ends⟩
    rw [append_assoc] at ends
    refine ⟨?_, fun result ran => ends result ((stepped result).mp ran).2⟩
    rw [searchable_cons, succeeds]
    simp only [stepped, exists_and_left]

theorem holds_start (fits : request.fixedBytes + total AllocationGroup.least groups ≤
      request.maximumEncodedBytes) : Holds request [] groups [⟨0, request.fixedBytes, 0⟩] := by
  refine ⟨fun row => ?_, pairwise_singleton _ _⟩
  rw [unbeaten_viableRow, mem_singleton]
  constructor
  · rintro rfl
    refine ⟨0, ⟨⟨by simp, fits⟩, ?_⟩, rfl⟩
    intro other below _
    rw [length_nil, Nat.pow_zero, Nat.lt_one_iff] at below
    subst other
    exact Objective.not_beats_self _
  · rintro ⟨choices, ⟨⟨below, _⟩, _⟩, rfl⟩
    rw [length_nil, Nat.pow_zero, Nat.lt_one_iff] at below
    subst choices
    rfl

def leastFrom : List AllocationGroup → List Nat
  | [] => [0]
  | group :: groups => total AllocationGroup.least (group :: groups) :: leastFrom groups

section

variable (groups : List AllocationGroup)

theorem headD_leastFrom : (leastFrom groups).headD 0 = total AllocationGroup.least groups := by
  cases groups <;> rfl

theorem leastFrom_eq_cons :
    leastFrom groups = total AllocationGroup.least groups :: (leastFrom groups).tail := by
  cases groups <;> rfl

theorem zip_leastFrom : groups.zip (leastFrom groups).tail = followed groups := by
  induction groups with
  | nil => rfl
  | cons group groups induction =>
    rw [leastFrom, tail_cons, leastFrom_eq_cons, zip_cons_cons, induction, followed]

end

theorem allocationRemaining_eq_ok : allocationRemaining groups = .ok remaining ↔
      (∀ group ∈ groups, group.least ≠ 0) ∧ total AllocationGroup.least groups ≤ u64Max ∧
        remaining = leastFrom groups := by
  induction groups generalizing remaining with
  | nil => simp [allocationRemaining, leastFrom, eq_comm]
  | cons group groups induction => ?_
  rw [allocationRemaining, leastFrom, total_cons]
  simp only [bind_eq_ok, orReject_eq_ok, induction, forall_mem_cons]
  constructor
  · rintro ⟨_, ⟨positive, _, rfl⟩, sum, added, made⟩
    cases made
    split at added
    · cases added
    rename_i nonzero
    rcases u64Add_eq_some.mp added with ⟨rfl, fits⟩
    rw [headD_leastFrom] at fits ⊢
    exact ⟨⟨nonzero, positive⟩, by omega, by rw [add_comm]⟩
  · rintro ⟨⟨nonzero, positive⟩, fits, rfl⟩
    refine ⟨_, ⟨positive, by omega, rfl⟩, _, ?_, rfl⟩
    rw [if_neg nonzero, u64Add_eq_some, headD_leastFrom]
    omega

end

def Allocation.Dominates (row other : Allocation) : Prop :=
  row.encodedBytes ≤ other.encodedBytes ∧ other.sourceElements ≤ row.sourceElements ∧
    (row.encodedBytes ≠ other.encodedBytes ∨ row.sourceElements ≠ other.sourceElements)

section

variable (request : AllocationRequest)

def AllocationRequest.row (choices : Nat) : Allocation :=
  allocated request.fixedBytes request.groups choices

def AllocationRequest.Fits (choices : Nat) : Prop := choices < 2 ^ request.groups.length ∧
    (request.row choices).encodedBytes ≤ request.maximumEncodedBytes

/-- The rows are the pairs of totals within the budget that no pair dominates, in ascending
order, each under its smallest mask. -/
structure ExactFrontier (rows : List Allocation) : Prop where
  mem_iff : ∀ row, row ∈ rows ↔ ∃ choices, request.Fits choices ∧ row = request.row choices ∧
    (∀ other, request.Fits other → ¬(request.row other).Dominates row) ∧
    ∀ other, request.Fits other → (request.row other).encodedBytes = row.encodedBytes →
      (request.row other).sourceElements = row.sourceElements → choices ≤ other
  ascending : rows.Pairwise fun row other =>
    row.encodedBytes < other.encodedBytes ∧ row.sourceElements < other.sourceElements

def AllocationRequest.rowCount : Nat := frontierSize request request.groups []

variable {request}

theorem onFrontier_iff : OnFrontier request request.groups [] choices ↔ request.Fits choices ∧
      (∀ other, request.Fits other → ¬(request.row other).Dominates (request.row choices)) ∧
      ∀ other, request.Fits other →
        (request.row other).encodedBytes = (request.row choices).encodedBytes →
        (request.row other).sourceElements = (request.row choices).sourceElements →
        choices ≤ other := by
  have beats (other : Nat) : allocationOrder.Beats
      (allocated request.fixedBytes request.groups other)
      (allocated request.fixedBytes request.groups choices) ↔
        (request.row other).Dominates (request.row choices) ∨
          (request.row other).encodedBytes = (request.row choices).encodedBytes ∧
          (request.row other).sourceElements = (request.row choices).sourceElements ∧
            other < choices := by
    simp only [Objective.Beats, allocationOrder, Allocation.Dominates, AllocationRequest.row]
    have choice (mask : Nat) :
        (allocated request.fixedBytes request.groups mask).choices = mask := rfl
    rw [choice, choice]
    omega
  rw [OnFrontier]
  simp only [beats, not_or, not_and, not_lt]
  constructor
  · rintro ⟨fits, best⟩
    exact ⟨fits, fun other within => (best other within.1 within).1,
      fun other within => (best other within.1 within).2⟩
  · rintro ⟨fits, undominated, smallest⟩
    exact ⟨fits, fun other _ within => ⟨undominated other within, smallest other within⟩⟩

theorem Holds.exactFrontier (holds : Holds request request.groups [] rows) :
    ExactFrontier request rows := by
  refine ⟨fun row => ?_, holds.ascending⟩
  rw [holds.mem_iff, unbeaten_viableRow]
  simp only [onFrontier_iff]
  constructor
  · rintro ⟨choices, ⟨fits, undominated, smallest⟩, rfl⟩
    exact ⟨choices, fits, rfl, undominated, smallest⟩
  · rintro ⟨choices, fits, rfl, undominated, smallest⟩
    exact ⟨choices, ⟨fits, undominated, smallest⟩, rfl⟩

structure Searched (request : AllocationRequest) : Prop where
  positive : ∀ group ∈ request.groups, group.least ≠ 0
  searchable : Searchable request [] request.groups

theorem allocationRows_eq_ok (ran : allocationRows stored request capacity = .ok rows) :
    (∃ choices, request.Fits choices) ∧ request.rowCount ≤ capacity ∧ Searched request ∧
      ExactFrontier request rows := by
  unfold allocationRows at ran
  simp only [bind_eq_ok, orReject_eq_ok, require_eq_ok, u64Add_eq_some,
    allocationRemaining_eq_ok] at ran
  rcases ran with ⟨_, _, _, ⟨positive, _, rfl⟩, _, ⟨rfl, _⟩, _, within, _, _, current, found,
    _, room, made⟩
  cases made
  rw [headD_leastFrom, decide_eq_true_eq] at within
  rw [zip_leastFrom] at found
  rw [decide_eq_true_eq] at room
  rcases (holds_start within).allocationSearch with ⟨succeeds, ends⟩
  have held := ends rows found
  rw [nil_append] at held
  rcases exists_chosenTotal_eq request.groups with ⟨choices, below, least⟩
  refine ⟨⟨choices, below, ?_⟩, ?_, ⟨positive, succeeds.mpr ⟨rows, found⟩⟩, held.exactFrontier⟩
  · change request.fixedBytes + chosenTotal _ _ _ ≤ _
    rw [least]
    exact within
  · rw [AllocationRequest.rowCount, ← held.length_eq]
    exact room

theorem exists_allocationRows (accepted : request.admitted capacity = true)
    (fits : request.Fits choices) (room : request.rowCount ≤ capacity)
      (searched : Searched request) :
    ∃ rows, allocationRows true request capacity = .ok rows := by
  have least := total_least_le request.groups choices
  have bounded := request.bounded
  have within : request.fixedBytes + chosenTotal AllocationGroup.encodedBytes request.groups
      choices ≤ request.maximumEncodedBytes := fits.2
  have start : request.fixedBytes + total AllocationGroup.least request.groups ≤
      request.maximumEncodedBytes := by omega
  rcases (holds_start start).allocationSearch with ⟨succeeds, ends⟩
  rcases succeeds.mp searched.searchable with ⟨rows, found⟩
  refine ⟨rows, ?_⟩
  unfold allocationRows
  simp only [bind_eq_ok, orReject_eq_ok, require_eq_ok, u64Add_eq_some, allocationRemaining_eq_ok]
  refine ⟨(), accepted, _, ⟨searched.positive, by omega, rfl⟩, _, ⟨rfl, ?_⟩, (), ?_, (), trivial,
    rows, ?_, (), ?_, rfl⟩
  · rw [headD_leastFrom]
    omega
  · rw [headD_leastFrom, decide_eq_true_eq]
    exact start
  · rw [zip_leastFrom]
    exact found
  · have held := ends rows found
    rw [decide_eq_true_eq, held.length_eq]
    exact room

end

/-- What the allocation promises its caller: the rows of a successful call are the exact
frontier, an accepted call succeeds where a choice fits, the rows have room and the search
runs to its end, and a refused call writes nothing. -/
structure AllocationContract (stored : Bool) (request : AllocationRequest) (capacity : Nat)
    (output : AllocationOutput) : Prop where
  exact : ∀ final, optimizationAllocate stored request capacity output = .ok () final →
    ExactFrontier request (final.rows.take final.count) ∧
      final.rows.drop final.count = output.rows.drop final.count
  succeeds : request.admitted capacity = true → stored = true →
    ((∃ final, optimizationAllocate stored request capacity output = .ok () final) ↔
      (∃ choices, request.Fits choices) ∧ request.rowCount ≤ capacity ∧ Searched request)
  unchanged : ∀ failure final,
    optimizationAllocate stored request capacity output = .error failure final → final = output

theorem optimizationAllocate_eq_ok :
    optimizationAllocate stored request capacity output = .ok () final ↔
      ∃ rows, allocationRows stored request capacity = .ok rows ∧
        final = ⟨rows ++ output.rows.drop rows.length, rows.length⟩ := by
  unfold optimizationAllocate
  rw [Attempt.bind_eq_ok]
  simp only [Attempt.check_eq_ok]
  constructor
  · rintro ⟨rows, _, ⟨found, rfl⟩, written⟩
    cases written
    exact ⟨rows, found, rfl⟩
  · rintro ⟨rows, found, rfl⟩
    exact ⟨rows, output, ⟨found, rfl⟩, rfl⟩

theorem optimizationAllocate_error {failure : Rejection}
    (ran : optimizationAllocate stored request capacity output = .error failure final) :
    final = output := by
  rcases Attempt.bind_eq_error.mp ran with refused | ⟨rows, middle, _, written⟩
  · exact (Attempt.check_eq_error.mp refused).2.symm
  · cases written

theorem optimizationAllocate_contract (stored : Bool) (request : AllocationRequest)
    (capacity : Nat) (output : AllocationOutput) :
    AllocationContract stored request capacity output := by
  refine ⟨?_, ?_, fun failure final => optimizationAllocate_error⟩
  · intro final ran
    rcases optimizationAllocate_eq_ok.mp ran with ⟨rows, found, rfl⟩
    rw [take_left, drop_left]
    exact ⟨(allocationRows_eq_ok found).2.2.2, rfl⟩
  intro accepted available
  subst available
  constructor
  · rintro ⟨final, ran⟩
    rcases optimizationAllocate_eq_ok.mp ran with ⟨rows, found, _⟩
    rcases allocationRows_eq_ok found with ⟨fits, room, searched, _⟩
    exact ⟨fits, room, searched⟩
  · rintro ⟨⟨choices, fits⟩, room, searched⟩
    rcases exists_allocationRows accepted fits room searched with ⟨rows, found⟩
    exact ⟨_, optimizationAllocate_eq_ok.mpr ⟨rows, found, rfl⟩⟩

def overflowingRequest : AllocationRequest where
  schemaVersion := 1
  maximumStates := 2
  fixedBytes := 1
  maximumEncodedBytes := 10
  groups := [⟨fun option => if option then u64Max else 1, fun option => if option then 1 else 0⟩]
  bounded := by decide

/-- The first encoding fits, and the call is refused because of the second. -/
theorem optimizationAllocate_overflowingRequest :
    overflowingRequest.admitted 1 = true ∧ overflowingRequest.Fits 0 ∧
      overflowingRequest.rowCount ≤ 1 ∧
      optimizationAllocate true overflowingRequest 1 ⟨[⟨0, 0, 0⟩], 0⟩ =
        .error ⟨.bounds, "candidate allocation overflow"⟩ ⟨[⟨0, 0, 0⟩], 0⟩ := by
  refine ⟨by decide, ⟨by decide, by decide⟩, by decide, by rfl⟩

end Yvex.Graph
