import Yvex.Foundation.Checked
import Yvex.Foundation.Digest

namespace Yvex.Graph

/-! # The identity of an attention state

A publication advances the identity of a layer row by row, and a bank counts the rows that were
applied to it, so that neither depends on how the rows were divided into publications. -/

/-- What `yvex_graph_state_advance_identity` hashes: the token ids, without them the activation,
with its rows as the bits of their values in memory, and without both the execution. -/
inductive PublicationSource where
  | tokens (tokenIds : List Nat)
  | activation (stride : Nat) (rows : List (List UInt32))
      (addressable : rows.length * stride ≤ u64Max / 4)
  | execution (tokenCount : Nat) (identity : Text)

structure Publication where
  tokenPosition : UInt64
  source : PublicationSource

def Publication.tokenCount (publication : Publication) : Nat :=
  match publication.source with
  | .tokens tokenIds => tokenIds.length
  | .activation _ rows _ => rows.length
  | .execution tokenCount _ => tokenCount

/-- What is kept of `attention_state_bank`. -/
structure StateBank where
  tokenCount : UInt64
  stateIdentity : Text

def isFinite (bits : UInt32) : Bool := bits &&& 0x7f800000 != 0x7f800000

section

variable [Sha256] (recipe plan : Text)

def rowIdentity (label : String) (current : Text) (items : List HashItem) : Text :=
  Sha256.hex ([.label label, .text plan, .text recipe, .text current] ++ items)

/-- The loop over the rows, with what is hashed of one. -/
def advanceRows (label : String) (items : UInt64 → ρ → Option (List HashItem)) :
    Text → UInt64 → List ρ → Option Text
  | current, _, [] => some current
  | current, position, row :: rows => do
    let next := rowIdentity recipe plan label current (← items position row)
    advanceRows label items next (position + 1) rows

def tokenItems (position : UInt64) (tokenId : Nat) : Option (List HashItem) :=
  some [.u64 position.toNat, .u64 tokenId]

def activationItems (stride : Nat) (position : UInt64) (values : List UInt32) :
    Option (List HashItem) := do
  ensure (values.all isFinite)
  pure ([.u64 position.toNat, .u64 stride] ++ values.map fun bits => .u64 bits.toNat)

def advanceIdentity (prior : Text) (publication : Publication) : Option Text := do
  let position := publication.tokenPosition
  ensure (hexValid prior && hexValid plan)
  match publication.source with
  | .tokens tokenIds =>
    ensure (!tokenIds.isEmpty)
    advanceRows recipe plan "yvex.graph.attention.state.v5" tokenItems prior position tokenIds
  | .activation stride rows _ =>
    ensure (!rows.isEmpty && decide (position.toNat ≤ u64Max - rows.length) && stride != 0 &&
      decide (stride ≤ u64Max / 4) && decide (rows.length ≤ u64Max / 4 / stride))
    advanceRows recipe plan "yvex.graph.attention.activation-state.v1" (activationItems stride) prior
      position rows
  | .execution tokenCount identity =>
    ensure (hexValid identity)
    pure (rowIdentity recipe plan "yvex.graph.attention.state.v4" prior
      [.text identity, .u64 (position + .ofNat tokenCount).toNat])

/-- `state_bank_advance_identity`. -/
def StateBank.advanceIdentity (bank : StateBank) (publication : Publication) : Option StateBank := do
  let adjusted := match publication.source with
    | .tokens _ => publication
    | _ => { publication with
        tokenPosition := bank.tokenCount - .ofNat publication.tokenCount }
  let stateIdentity ← Graph.advanceIdentity recipe plan bank.stateIdentity adjusted
  return { bank with stateIdentity }

/-- The count and the identity that `state_bank_apply_publication` leaves. -/
def StateBank.applyPublication (bank : StateBank) (publication : Publication) : Option StateBank :=
  StateBank.advanceIdentity recipe plan
    { bank with tokenCount := bank.tokenCount + .ofNat publication.tokenCount } publication

/-- A publication of rows, and its two parts. -/
inductive Splits : Publication → Publication → Publication → Prop
  | tokens (position : UInt64) (first rest : List Nat) (one : first ≠ []) (two : rest ≠ []) :
      Splits ⟨position, .tokens (first ++ rest)⟩ ⟨position, .tokens first⟩
        ⟨position + .ofNat first.length, .tokens rest⟩
  | activation (position : UInt64) (stride : Nat) (first rest : List (List UInt32))
      (one : first ≠ []) (two : rest ≠ []) (whole : (first ++ rest).length * stride ≤ u64Max / 4)
      (front : first.length * stride ≤ u64Max / 4) (back : rest.length * stride ≤ u64Max / 4) :
      Splits ⟨position, .activation stride (first ++ rest) whole⟩
        ⟨position, .activation stride first front⟩
        ⟨position + .ofNat first.length, .activation stride rest back⟩

/-- A way to stage a publication. -/
inductive Staged : Publication → List Publication → Prop
  | whole (publication : Publication) : Staged publication [publication]
  | part (splits : Splits whole first rest) (later : Staged rest parts) :
      Staged whole (first :: parts)

/-- An identity that was advanced over some rows can be advanced over more. -/
theorem advanceRows_append (start : (hexValid prior && hexValid plan) = true) (first rest : List ρ) :
    advanceRows recipe plan label items prior position (first ++ rest) =
      (advanceRows recipe plan label items prior position first).bind fun next =>
        (ensure (hexValid next && hexValid plan)).bind fun _ =>
          advanceRows recipe plan label items next (position + .ofNat first.length) rest := by
  induction first generalizing prior position with
  | nil =>
    rw [advanceRows, Option.bind_some, start]
    simp [ensure]
  | cons row first induction =>
    have counted : position + 1 + .ofNat first.length = position + .ofNat (row :: first).length := by
      simp [UInt64.add_assoc, UInt64.add_comm 1]
    rw [List.cons_append, advanceRows, advanceRows, ← counted]
    simp only [Option.bind_eq_bind, Option.bind_assoc]
    apply Option.bind_congr
    intro hashed _
    apply induction
    rw [Bool.and_eq_true] at start ⊢
    exact ⟨Sha256.hex_valid _, start.2⟩

theorem advanceIdentity_activation (present : rows ≠ []) (positive : 0 < stride)
    (addressable : rows.length * stride ≤ u64Max / 4) :
    advanceIdentity recipe plan prior ⟨position, .activation stride rows addressable⟩ =
      (ensure (hexValid prior && hexValid plan)).bind fun _ =>
        (ensure (decide (position.toNat ≤ u64Max - rows.length))).bind fun _ =>
          advanceRows recipe plan "yvex.graph.attention.activation-state.v1"
            (activationItems stride) prior position rows := by
  have counted := (Nat.le_div_iff_mul_le positive).mpr addressable
  have least := Nat.le_mul_of_pos_left stride (List.length_pos_iff.mpr present)
  have shown : rows.isEmpty = false := by simpa using present
  have nonzero : (stride != 0) = true := by simpa using ne_of_gt positive
  simp [advanceIdentity, shown, counted, nonzero, le_trans least addressable]

theorem advanceIdentity_splits (splits : Splits whole first rest) (prior : Text) :
    advanceIdentity recipe plan prior whole = (advanceIdentity recipe plan prior first).bind
      (advanceIdentity recipe plan · rest) := by
  by_cases start : (hexValid prior && hexValid plan) = true
  · cases splits with
    | tokens position first rest one two =>
      simpa [advanceIdentity, start, ensure, one, two] using
        advanceRows_append recipe plan start first rest
    | activation position stride first rest one two whole front back =>
      rcases stride.eq_zero_or_pos with rfl | positive
      · simp [advanceIdentity, ensure]
      have small := le_trans (Nat.le_mul_of_pos_right _ positive) whole
      rw [List.length_append] at small
      have next (early : position.toNat ≤ u64Max - first.length) :
          (position + .ofNat first.length).toNat = position.toNat + first.length := by
        simp only [u64Max] at early small
        rw [UInt64.toNat_add, UInt64.toNat_ofNat_of_lt' (by simp [UInt64.size]; omega)]
        omega
      simp only [advanceIdentity_activation recipe plan _ positive, one, two, ne_eq,
        List.append_eq_nil_iff, false_and, not_false_eq_true, List.length_append, start]
      by_cases early : position.toNat ≤ u64Max - first.length
      · have same : (position.toNat ≤ u64Max - (first.length + rest.length)) =
            (position.toNat + first.length ≤ u64Max - rest.length) := by
          rw [eq_iff_iff]
          omega
        simp only [next early, early, same]
        by_cases late : position.toNat + first.length ≤ u64Max - rest.length
        · simpa [late, ensure] using advanceRows_append recipe plan start first rest
        · simp [late, ensure]
      · simp [early, ensure, show ¬ position.toNat ≤ u64Max - (first.length + rest.length) by omega]
  · simp [advanceIdentity, start, ensure]

/-- Rows without token ids are at the position that the bank counts to. -/
theorem StateBank.applyPublication_splits (splits : Splits whole first rest) (bank : StateBank) :
    bank.applyPublication recipe plan whole = (bank.applyPublication recipe plan first).bind
      (applyPublication recipe plan · rest) := by
  cases splits with
  | tokens position first rest one two =>
    have advanced := advanceIdentity_splits recipe plan (.tokens position first rest one two)
      bank.stateIdentity
    simp [applyPublication, StateBank.advanceIdentity, Publication.tokenCount, advanced,
      Option.bind_assoc, UInt64.add_assoc]
  | activation position stride first rest one two whole front back =>
    have advanced := advanceIdentity_splits recipe plan
      (.activation bank.tokenCount stride first rest one two whole front back) bank.stateIdentity
    simp only [applyPublication, StateBank.advanceIdentity, Publication.tokenCount, advanced,
      UInt64.add_sub_cancel, Option.bind_eq_bind, Option.bind_assoc, Option.pure_def,
      Option.bind_some, List.length_append, UInt64.ofNat_add, UInt64.add_assoc]

/-- However the rows of a publication are divided into publications, they advance an identity to
the same, and a bank to which they are applied. -/
theorem advanceIdentity_staged (staged : Staged whole parts) :
    (∀ prior, parts.foldlM (advanceIdentity recipe plan) prior =
      advanceIdentity recipe plan prior whole) ∧
    ∀ bank : StateBank, parts.foldlM (StateBank.applyPublication recipe plan) bank =
      bank.applyPublication recipe plan whole := by
  induction staged with
  | whole publication => simp
  | part splits later induction =>
    refine ⟨fun prior => ?_, fun bank => ?_⟩
    · rw [advanceIdentity_splits recipe plan splits]
      exact Option.bind_congr fun next _ => induction.1 next
    · rw [StateBank.applyPublication_splits recipe plan splits]
      exact Option.bind_congr fun next _ => induction.2 next

end

/-- Two tokens and two activation rows, one after the other, behind five tokens. -/
theorem advanceIdentity_staged_two :
    let zero := List.replicate 64 '0'
    let apply := @StateBank.applyPublication plainDigest zero zero
    [⟨5, .tokens [7]⟩, ⟨5 + .ofNat 1, .tokens [8]⟩].foldlM apply ⟨5, zero⟩ =
      apply ⟨5, zero⟩ ⟨5, .tokens [7, 8]⟩ ∧
    [⟨5, .activation 2 [[1, 2]] (by decide)⟩,
        ⟨5 + .ofNat 1, .activation 2 [[3, 4]] (by decide)⟩].foldlM apply ⟨5, zero⟩ =
      apply ⟨5, zero⟩ ⟨5, .activation 2 [[1, 2], [3, 4]] (by decide)⟩ ∧
    (apply ⟨5, zero⟩ ⟨5, .activation 2 [[1, 2], [3, 4]] (by decide)⟩).isSome := by
  refine ⟨(@advanceIdentity_staged plainDigest _ _ _ _ ?_).2 _,
    (@advanceIdentity_staged plainDigest _ _ _ _ ?_).2 _, rfl⟩
  · exact .part (.tokens 5 [7] [8] (by simp) (by simp)) (.whole _)
  · exact .part (.activation 5 2 [[1, 2]] [[3, 4]] (by simp) (by simp) _ _ _) (.whole _)

end Yvex.Graph
