import Mathlib.Data.Set.Finite.List
import Yvex.Foundation.Inventory

namespace Yvex

open List Option

/-! # Cost and value frontiers

Rows have a cost to keep small and a value to keep large; a tag decides between rows that are
equal in both. The rows that no other row beats are the frontier. Two facts carry an exact
search: one pass over the rows in order finds the frontier, and extending only the frontier
loses nothing of the frontier of all extensions. -/

/-- A relation that orders the rows of a list strictly leaves one of them, or one that beats it,
unbeaten. -/
theorem exists_unbeaten {beats : ρ → ρ → Prop} (unbeaten : ∀ row, ¬beats row row)
    (trans : ∀ {first second third}, beats first second → beats second third → beats first third)
    {rows : List ρ} (row : { row // row ∈ rows }) :
    ∃ cover ∈ rows, (∀ other ∈ rows, ¬beats other cover) ∧ (cover = row ∨ beats cover row) := by
  let better (first second : { row // row ∈ rows }) : Prop := beats first second
  have : IsTrans _ better := ⟨fun _ _ _ => trans⟩
  have : Std.Irrefl better := ⟨fun _ => unbeaten _⟩
  have : Finite { row // row ∈ rows } := rows.finite_toSet
  induction row using (Finite.wellFounded_of_trans_of_irrefl better).induction with
  | _ row induction => ?_
  by_cases alone : ∀ other ∈ rows, ¬beats other row
  · exact ⟨row, row.2, alone, .inl rfl⟩
  push Not at alone
  rcases alone with ⟨other, member, beaten⟩
  rcases induction ⟨other, member⟩ beaten with ⟨cover, among, best, near⟩
  refine ⟨cover, among, best, .inr ?_⟩
  rcases near with rfl | far
  · exact beaten
  · exact trans far beaten

structure Objective (ρ : Type) where
  cost : ρ → Nat
  value : ρ → Nat
  tag : ρ → Nat
  separated : ∀ {row other}, cost row = cost other → value row = value other →
    tag row = tag other → row = other

namespace Objective

variable {ρ : Type} (objective : Objective ρ)

def Beats (row other : ρ) : Prop :=
  objective.cost row ≤ objective.cost other ∧ objective.value other ≤ objective.value row ∧
    (objective.cost row = objective.cost other → objective.value row = objective.value other →
      objective.tag row < objective.tag other)

instance (row other : ρ) : Decidable (objective.Beats row other) := by
  unfold Beats
  infer_instance

/-- The order of the pass: ascending cost, then descending value, then ascending tag. -/
def Precedes (row other : ρ) : Prop := objective.cost row < objective.cost other ∨
    objective.cost row = objective.cost other ∧ (objective.value other < objective.value row ∨
        objective.value row = objective.value other ∧ objective.tag row ≤ objective.tag other)

instance (row other : ρ) : Decidable (objective.Precedes row other) := by
  unfold Precedes
  infer_instance

instance : Std.Total objective.Precedes where
  total row other := by
    unfold Precedes
    omega

instance : IsTrans ρ objective.Precedes where
  trans row middle other first second := by
    unfold Precedes at *
    omega

def Unbeaten (rows : ρ → Prop) (row : ρ) : Prop :=
  rows row ∧ ∀ other, rows other → ¬objective.Beats other row

variable {objective}

theorem not_beats_self (row : ρ) : ¬objective.Beats row row :=
  fun beats => lt_irrefl _ (beats.2.2 rfl rfl)

theorem Beats.trans (first : objective.Beats row middle)
    (second : objective.Beats middle other) : objective.Beats row other := by
  refine ⟨first.1.trans second.1, second.2.1.trans first.2.1, fun cost value => ?_⟩
  have firstTag := first.2.2
  have secondTag := second.2.2
  have := first.1
  have := first.2.1
  have := second.1
  have := second.2.1
  omega

def rising (objective : Objective ρ) : Option Nat → List ρ → List ρ
  | _, [] => []
  | last, row :: rest =>
    if last.any (objective.value row ≤ ·) then rising objective last rest
    else row :: rising objective (some (objective.value row)) rest

theorem mem_of_mem_rising (member : row ∈ rising objective last rows) : row ∈ rows := by
  induction rows generalizing last with
  | nil => exact member
  | cons first rest induction => ?_
  rw [rising] at member
  split at member
  · exact mem_cons_of_mem _ (induction member)
  rcases mem_cons.mp member with same | later
  · rw [same]
    exact mem_cons_self
  · exact mem_cons_of_mem _ (induction later)

theorem Precedes.value_lt (ordered : objective.Precedes row other)
    (unbeaten : ¬objective.Beats row other) :
    objective.value row < objective.value other ∨ other = row := by
  by_cases larger : objective.value row < objective.value other
  · exact .inl larger
  right
  unfold Precedes at ordered
  unfold Beats at unbeaten
  refine objective.separated ?_ ?_ ?_ <;> omega

theorem Precedes.not_beats (ordered : objective.Precedes row other) :
    ¬objective.Beats other row := by
  unfold Precedes at ordered
  unfold Beats
  omega

theorem mem_rising (sorted : rows.Pairwise objective.Precedes) (row : ρ) :
    row ∈ rising objective last rows ↔ last.all (· < objective.value row) = true ∧
        objective.Unbeaten (· ∈ rows) row := by
  induction rows generalizing last with
  | nil => simp [rising, Unbeaten]
  | cons first rest induction => ?_
  rw [pairwise_cons] at sorted
  rw [rising]
  split
  · rename_i low
    rcases (any_eq_true _ _).mp low with ⟨bound, found, below⟩
    rw [decide_eq_true_eq] at below
    rw [induction sorted.2, found]
    simp only [all_some, decide_eq_true_eq]
    constructor
    · rintro ⟨above, member, unbeaten⟩
      refine ⟨above, mem_cons_of_mem _ member, ?_⟩
      intro other among beats
      rcases mem_cons.mp among with same | later
      · subst other
        have := beats.2.1
        omega
      · exact unbeaten other later beats
    · rintro ⟨above, member, unbeaten⟩
      rcases mem_cons.mp member with same | later
      · subst row
        omega
      · exact ⟨above, later, fun other among => unbeaten other (mem_cons_of_mem _ among)⟩
  rename_i high
  have above : ∀ value, objective.value first ≤ value → last.all (· < value) = true := by
    intro value larger
    cases last with
    | none => rfl
    | some bound => ?_
    simp only [any_some, decide_eq_true_eq] at high
    simp only [all_some, decide_eq_true_eq]
    omega
  rw [mem_cons, induction sorted.2]
  simp only [all_some, decide_eq_true_eq]
  constructor
  · rintro (same | ⟨larger, member, unbeaten⟩)
    · subst row
      refine ⟨above _ le_rfl, mem_cons_self, ?_⟩
      intro other among
      rcases mem_cons.mp among with same | later
      · rw [same]
        exact not_beats_self first
      · exact (sorted.1 other later).not_beats
    refine ⟨above _ larger.le, mem_cons_of_mem _ member, ?_⟩
    intro other among beats
    rcases mem_cons.mp among with same | later
    · subst other
      have := beats.2.1
      omega
    · exact unbeaten other later beats
  · rintro ⟨_, member, unbeaten⟩
    rcases mem_cons.mp member with same | later
    · exact .inl same
    rcases (sorted.1 row later).value_lt (unbeaten first mem_cons_self) with
      larger | same
    · exact .inr ⟨larger, later, fun other among => unbeaten other (mem_cons_of_mem _ among)⟩
    · exact .inl same

theorem pairwise_rising (sorted : rows.Pairwise objective.Precedes) :
    (rising objective last rows).Pairwise fun row other =>
      objective.cost row < objective.cost other ∧ objective.value row < objective.value other := by
  induction rows generalizing last with
  | nil => exact List.Pairwise.nil
  | cons first rest induction => ?_
  rw [pairwise_cons] at sorted
  rw [rising]
  split
  · exact induction sorted.2
  rw [pairwise_cons]
  refine ⟨fun other member => ?_, induction sorted.2⟩
  have later := ((mem_rising sorted.2 other).mp member).1
  simp only [all_some, decide_eq_true_eq] at later
  have ordered := sorted.1 other (mem_of_mem_rising member)
  refine ⟨?_, later⟩
  unfold Precedes at ordered
  omega

def Covered (objective : Objective ρ) (rows : ρ → Prop) : Prop :=
  ∀ row, rows row → ∃ cover, objective.Unbeaten rows cover ∧
    (cover = row ∨ objective.Beats cover row)

theorem covered_of_list (rows : List ρ) : Covered objective (· ∈ rows) := by
  intro row member
  rcases exists_unbeaten not_beats_self Beats.trans ⟨row, member⟩ with ⟨cover, among, best, near⟩
  exact ⟨cover, ⟨among, best⟩, near⟩

def Monotone (objective : Objective ρ) (rows : ρ → Prop) (extend : ρ → Option ρ) : Prop :=
  ∀ {row other extended}, rows row → rows other → objective.Beats row other →
    extend other = some extended →
    ∃ better, extend row = some better ∧ objective.Beats better extended

def Extended (extensions : List (ρ → Option ρ)) (rows : ρ → Prop) (extended : ρ) : Prop :=
  ∃ row, rows row ∧ ∃ extend ∈ extensions, extend row = some extended

theorem unbeaten_extended {rows : ρ → Prop}
    (monotone : ∀ extend ∈ extensions, Monotone objective rows extend)
    (covered : Covered objective rows) (extended : ρ) :
    objective.Unbeaten (Extended extensions (objective.Unbeaten rows)) extended ↔
      objective.Unbeaten (Extended extensions rows) extended := by
  have part {extended : ρ} (member : Extended extensions (objective.Unbeaten rows) extended) :
      Extended extensions rows extended := by
    rcases member with ⟨row, unbeaten, extend, among, made⟩
    exact ⟨row, unbeaten.1, extend, among, made⟩
  constructor
  · rintro ⟨member, unbeaten⟩
    refine ⟨part member, ?_⟩
    rintro other ⟨row, among, extend, listed, made⟩ beats
    rcases covered row among with ⟨cover, covering, same | better⟩
    · subst row
      exact unbeaten other ⟨cover, covering, extend, listed, made⟩ beats
    · rcases monotone extend listed covering.1 among better made with ⟨improved, makes, improves⟩
      exact unbeaten improved ⟨cover, covering, extend, listed, makes⟩ (improves.trans beats)
  rintro ⟨⟨row, among, extend, listed, made⟩, unbeaten⟩
  refine ⟨?_, fun other member => unbeaten other (part member)⟩
  rcases covered row among with ⟨cover, covering, same | better⟩
  · subst row
    exact ⟨cover, covering, extend, listed, made⟩
  · rcases monotone extend listed covering.1 among better made with ⟨improved, makes, improves⟩
    exact absurd improves
      (unbeaten improved ⟨cover, covering.1, extend, listed, makes⟩)

end Objective

end Yvex
