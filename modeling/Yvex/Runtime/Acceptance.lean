import Mathlib.Data.List.GetD
import Yvex.Foundation.Checked

namespace Yvex.Runtime

open List Yvex.Except

/-! # Acceptance of draft candidates

A cycle of speculative generation drafts a few candidates behind the token the target chose and
lets the target choose once behind each of them. Greedy acceptance keeps the candidates that
agree with the target, then one token of the target's own: its correction of the first
candidate that differs, or its bonus behind the last. -/

def speculationMaxBlock : Nat := 8

/-- `yvex_speculation_acceptance_request` of a greedy cycle. -/
structure AcceptanceRequest where
  vocabularySize : Nat
  candidateTokenIds : List Nat
  targetTokenIds : List Nat

/-- `yvex_speculation_acceptance_result` with the tokens it commits. -/
structure AcceptanceResult where
  proposedCount : Nat
  acceptedDraftCount : Nat
  rejectedDraftCount : Nat
  rejectionIndex : Nat
  allCandidatesAccepted : Bool
  correctionPresent : Bool
  bonusPresent : Bool
  correctionOrBonusTokenId : Nat
  committedTokenIds : List Nat

def AcceptanceResult.committedCount (result : AcceptanceResult) : Nat :=
  result.committedTokenIds.length

def u32Max : Nat := 2 ^ 32 - 1

section

variable (request : AcceptanceRequest) (committedCapacity : Nat)

def acceptanceValidate : Except Rejection Unit := do
  let count := request.candidateTokenIds.length
  require (count != 0 && count ≤ speculationMaxBlock && request.vocabularySize != 0 &&
      request.vocabularySize ≤ u32Max && count + 1 ≤ committedCapacity)
    .invalidArgument "speculative acceptance geometry is incomplete"
  require (request.candidateTokenIds.all (· < request.vocabularySize))
    .bounds "candidate token is outside the vocabulary"
  require (request.targetTokenIds.all (· < request.vocabularySize))
    .bounds "target token is outside the vocabulary"

/-- The loop of `yvex_speculation_accept`, at the candidates that are left. -/
def acceptCandidates (request : AcceptanceRequest) :
    List Nat → Nat → AcceptanceResult → Except Rejection AcceptanceResult
  | [], _, result => .ok result
  | candidate :: rest, index, result =>
    let target := request.targetTokenIds.getD index 0
    if candidate = target then
      acceptCandidates request rest (index + 1)
        { result with
          committedTokenIds := result.committedTokenIds ++ [candidate]
          acceptedDraftCount := result.acceptedDraftCount + 1 }
    else if target = u32Max then
      .error ⟨.format, "residual target distribution is empty"⟩
    else
      .ok { result with
        rejectionIndex := index
        rejectedDraftCount := request.candidateTokenIds.length - index
        committedTokenIds := result.committedTokenIds ++ [target]
        correctionPresent := true
        correctionOrBonusTokenId := target }

def acceptBonus (result : AcceptanceResult) : Except Rejection AcceptanceResult :=
  let bonus := request.targetTokenIds.getD request.candidateTokenIds.length 0
  if result.acceptedDraftCount = request.candidateTokenIds.length then
    if bonus = u32Max then .error ⟨.format, "target bonus distribution is empty"⟩
    else
      .ok { result with
        committedTokenIds := result.committedTokenIds ++ [bonus]
        allCandidatesAccepted := true
        bonusPresent := true
        correctionOrBonusTokenId := bonus }
  else .ok result

def acceptanceSeal (vocabularySize committedCapacity : Nat) (result : AcceptanceResult) :
    Except Rejection AcceptanceResult := do
  require (result.proposedCount != 0 && result.proposedCount ≤ speculationMaxBlock &&
      vocabularySize != 0 && vocabularySize ≤ u32Max && result.committedCount != 0 &&
      result.committedCount ≤ committedCapacity &&
      result.acceptedDraftCount ≤ result.proposedCount &&
      result.rejectedDraftCount == result.proposedCount - result.acceptedDraftCount &&
      result.committedCount == result.acceptedDraftCount + 1 &&
      (result.correctionPresent != result.bonusPresent) &&
      (result.allCandidatesAccepted == result.bonusPresent) &&
      (!result.correctionPresent || (result.acceptedDraftCount < result.proposedCount &&
        result.rejectionIndex == result.acceptedDraftCount)) &&
      (!result.bonusPresent || (result.acceptedDraftCount == result.proposedCount &&
        result.rejectionIndex == result.proposedCount)) &&
      result.correctionOrBonusTokenId ==
        result.committedTokenIds.getD (result.committedCount - 1) 0)
    .format "bounded speculative acceptance facts are inconsistent"
  require (result.committedTokenIds.all (· < vocabularySize))
    .bounds "bounded speculative acceptance token is outside the vocabulary"
  return result

/-- The cleared result in which `yvex_speculation_accept` counts. -/
def acceptanceStart : AcceptanceResult where
  proposedCount := request.candidateTokenIds.length
  acceptedDraftCount := 0
  rejectedDraftCount := 0
  rejectionIndex := request.candidateTokenIds.length
  allCandidatesAccepted := false
  correctionPresent := false
  bonusPresent := false
  correctionOrBonusTokenId := 0
  committedTokenIds := []

/-- `yvex_speculation_accept` of a greedy request. -/
def speculationAccept : Except Rejection AcceptanceResult := do
  acceptanceValidate request committedCapacity
  let looped ← acceptCandidates request request.candidateTokenIds 0 (acceptanceStart request)
  let result ← acceptBonus request looped
  acceptanceSeal request.vocabularySize committedCapacity result

def candidateExtent (policyBlockSize remainingOutputTokens remainingContextTokens : Nat) :
    Except Rejection Nat := do
  require (policyBlockSize != 0 && policyBlockSize ≤ speculationMaxBlock &&
      remainingOutputTokens != 0 && remainingContextTokens != 0)
    .invalidArgument "speculative candidate extent requires bounded output and context"
  -- The anchor and the bonus are reserved before anything is drafted.
  if remainingOutputTokens ≤ 2 || remainingContextTokens ≤ 2 then return 0
  return min (min policyBlockSize (remainingOutputTokens - 2)) (remainingContextTokens - 2)

structure CommitPlan where
  statePrefixCount : Nat
  publicationTokenCount : Nat
  terminal : Bool

def commitPlanBuild (acceptance : AcceptanceResult) (terminalIndex : Nat) :
    Except Rejection CommitPlan := do
  require (acceptance.committedCount != 0 &&
      acceptance.committedCount == acceptance.acceptedDraftCount + 1 &&
      (u64Add acceptance.committedCount 1).any (terminalIndex ≤ ·))
    .invalidArgument "speculative commit plan is malformed"
  let outputCount := acceptance.committedCount + 1
  if terminalIndex < outputCount then
    require (terminalIndex != 0)
      .state "a terminal conditioning token cannot enter verification"
    return ⟨terminalIndex, terminalIndex + 1, true⟩
  else return ⟨outputCount, outputCount, false⟩

def agreement : List Nat → List Nat → Nat
  | candidate :: candidates, target :: targets =>
    if candidate = target then agreement candidates targets + 1 else 0
  | _, _ => 0

theorem agreement_le (candidates targets : List Nat) :
    agreement candidates targets ≤ candidates.length := by
  induction candidates generalizing targets with
  | nil => cases targets <;> simp [agreement]
  | cons candidate candidates induction => ?_
  cases targets with
  | nil => simp [agreement]
  | cons target targets => ?_
  have bound := induction targets
  rw [agreement]
  split
  · simpa using bound
  · simp

def acceptanceOf : AcceptanceResult :=
  let count := request.candidateTokenIds.length
  let agreed := agreement request.candidateTokenIds request.targetTokenIds
  let target := request.targetTokenIds.getD agreed 0
  { proposedCount := count
    acceptedDraftCount := agreed
    rejectedDraftCount := count - agreed
    rejectionIndex := agreed
    allCandidatesAccepted := agreed = count
    correctionPresent := agreed ≠ count
    bonusPresent := agreed = count
    correctionOrBonusTokenId := target
    committedTokenIds := request.candidateTokenIds.take agreed ++ [target] }

end

/-- A request with one target row behind each candidate and one in front, as a cycle makes it,
whose tokens are in the vocabulary. -/
structure AcceptanceRequest.Admitted (request : AcceptanceRequest) (committedCapacity : Nat) :
    Prop where
  rows : request.targetTokenIds.length = request.candidateTokenIds.length + 1
  valid : acceptanceValidate request committedCapacity = .ok ()

namespace AcceptanceRequest.Admitted

variable {request : AcceptanceRequest}

section

variable (admitted : request.Admitted committedCapacity)

include admitted

theorem geometry : request.candidateTokenIds.length ≠ 0 ∧
      request.candidateTokenIds.length ≤ speculationMaxBlock ∧ request.vocabularySize ≠ 0 ∧
      request.vocabularySize ≤ u32Max ∧
      request.candidateTokenIds.length + 1 ≤ committedCapacity := by
  have valid := admitted.valid
  simp only [acceptanceValidate, bind_eq_ok, require_eq_ok, bne_iff_ne,
    Bool.and_eq_true, decide_eq_true_eq] at valid
  rcases valid with ⟨_, ⟨⟨⟨⟨nonempty, short⟩, vocabulary⟩, small⟩, room⟩, _⟩
  exact ⟨nonempty, short, vocabulary, small, room⟩

theorem candidate_lt
    (member : token ∈ request.candidateTokenIds) : token < request.vocabularySize := by
  have valid := admitted.valid
  simp only [acceptanceValidate, bind_eq_ok, require_eq_ok, all_eq_true, decide_eq_true_eq] at valid
  rcases valid with ⟨_, _, _, candidates, _⟩
  exact candidates token member

theorem target_lt (member : token ∈ request.targetTokenIds) : token < request.vocabularySize := by
  have valid := admitted.valid
  simp only [acceptanceValidate, bind_eq_ok, require_eq_ok, all_eq_true, decide_eq_true_eq] at valid
  rcases valid with ⟨_, _, _, _, targets⟩
  exact targets token member

theorem getD_lt (inside : index ≤ request.candidateTokenIds.length) :
    request.targetTokenIds.getD index 0 < request.vocabularySize := by
  have bound : index < request.targetTokenIds.length := by
    rw [admitted.rows]
    omega
  rw [getD_eq_getElem _ _ bound]
  exact admitted.target_lt (getElem_mem bound)

theorem getD_ne_u32Max (inside : index ≤ request.candidateTokenIds.length) :
    request.targetTokenIds.getD index 0 ≠ u32Max := by
  have bound := admitted.getD_lt inside
  have small := admitted.geometry.2.2.2.1
  omega

end

end AcceptanceRequest.Admitted

variable {request : AcceptanceRequest}

section

variable (admitted : request.Admitted committedCapacity)

include admitted

theorem acceptCandidates_eq (rest : List Nat) (index : Nat) (result : AcceptanceResult)
    (aligned : index + rest.length = request.candidateTokenIds.length) :
    acceptCandidates request rest index result =
      .ok (if agreement rest (request.targetTokenIds.drop index) = rest.length then
        { result with
          committedTokenIds := result.committedTokenIds ++ rest
          acceptedDraftCount := result.acceptedDraftCount + rest.length }
      else
        let agreed := agreement rest (request.targetTokenIds.drop index)
        let target := request.targetTokenIds.getD (index + agreed) 0
        { result with
          rejectionIndex := index + agreed
          rejectedDraftCount := request.candidateTokenIds.length - (index + agreed)
          committedTokenIds := result.committedTokenIds ++ rest.take agreed ++ [target]
          correctionPresent := true
          correctionOrBonusTokenId := target
          acceptedDraftCount := result.acceptedDraftCount + agreed }) := by
  induction rest generalizing index result with
  | nil => cases request.targetTokenIds.drop index <;> simp [acceptCandidates, agreement]
  | cons candidate rest induction => ?_
  rw [length_cons] at aligned
  have bound : index < request.targetTokenIds.length := by
    rw [admitted.rows]
    omega
  rw [drop_eq_getElem_cons bound, acceptCandidates, agreement, getD_eq_getElem _ _ bound]
  by_cases same : candidate = request.targetTokenIds.get ⟨index, bound⟩
  · grind
  · have inVocabulary : request.targetTokenIds.getD index 0 ≠ u32Max :=
      admitted.getD_ne_u32Max (by omega)
    rw [getD_eq_getElem _ _ bound] at inVocabulary
    simp only [get_eq_getElem] at same
    simp [if_neg same, if_neg inVocabulary, getElem?_eq_getElem bound]

theorem acceptBonus_eq :
    (acceptCandidates request request.candidateTokenIds 0 (acceptanceStart request) >>=
      acceptBonus request) = .ok (acceptanceOf request) := by
  rw [acceptCandidates_eq admitted _ 0 _ (by omega), drop_zero]
  by_cases every : agreement request.candidateTokenIds request.targetTokenIds =
      request.candidateTokenIds.length
  · have bonus : request.targetTokenIds.getD request.candidateTokenIds.length 0 ≠ u32Max :=
      admitted.getD_ne_u32Max (by omega)
    simp only [Except.bind, bind, acceptBonus, acceptanceStart, if_neg bonus, acceptanceOf, every]
    simp
  · simp only [Except.bind, bind, acceptBonus, acceptanceStart, acceptanceOf]
    simp [every]

theorem acceptanceSeal_acceptanceOf :
    acceptanceSeal request.vocabularySize committedCapacity (acceptanceOf request) =
      .ok (acceptanceOf request) := by
  have bound := agreement_le request.candidateTokenIds request.targetTokenIds
  rcases admitted.geometry with ⟨nonempty, short, vocabulary, small, room⟩
  have committed : (acceptanceOf request).committedCount =
      agreement request.candidateTokenIds request.targetTokenIds + 1 := by
    simp [acceptanceOf, AcceptanceResult.committedCount, bound]
  have last : (acceptanceOf request).committedTokenIds.getD
      (agreement request.candidateTokenIds request.targetTokenIds) 0 =
        (acceptanceOf request).correctionOrBonusTokenId := by
    simp [acceptanceOf, bound]
  have tokens : (acceptanceOf request).committedTokenIds.all
      (· < request.vocabularySize) = true := by
    simp only [acceptanceOf, all_append, all_cons, all_nil, Bool.and_true,
      Bool.and_eq_true, all_eq_true, decide_eq_true_eq]
    exact ⟨fun token member => admitted.candidate_lt (mem_of_mem_take member),
      admitted.getD_lt bound⟩
  simp only [acceptanceSeal, tokens, committed, Nat.add_sub_cancel, last, bind_eq_ok, require_eq_ok]
  refine ⟨(), ?_, (), trivial, rfl⟩
  have proposed : request.candidateTokenIds ≠ [] := fun empty => nonempty (by simp [empty])
  by_cases every : agreement request.candidateTokenIds request.targetTokenIds =
      request.candidateTokenIds.length
  · simpa [acceptanceOf, every, proposed, vocabulary] using ⟨⟨short, small⟩, room⟩
  have fits : agreement request.candidateTokenIds request.targetTokenIds + 1 ≤
      committedCapacity := by omega
  have partly : agreement request.candidateTokenIds request.targetTokenIds <
      request.candidateTokenIds.length := by omega
  simpa [acceptanceOf, every, proposed, vocabulary] using
    ⟨⟨⟨⟨short, small⟩, fits⟩, bound⟩, partly⟩

theorem speculationAccept_eq :
    speculationAccept request committedCapacity = .ok (acceptanceOf request) := by
  have counted := acceptBonus_eq admitted
  rw [bind_eq_ok] at counted
  rcases counted with ⟨looped, loop, bonus⟩
  simp only [speculationAccept, bind_eq_ok]
  exact ⟨(), admitted.valid, looped, loop, acceptanceOf request, bonus,
    acceptanceSeal_acceptanceOf admitted⟩

end

theorem speculationAccept_eq_ok
    (rows : request.targetTokenIds.length = request.candidateTokenIds.length + 1)
    (accepted : speculationAccept request committedCapacity = .ok result) :
    result = acceptanceOf request := by
  have opened := accepted
  simp only [speculationAccept, bind_eq_ok] at opened
  rcases opened with ⟨_, valid, _⟩
  rw [speculationAccept_eq ⟨rows, valid⟩, Except.ok.injEq] at accepted
  exact accepted.symm

theorem candidateExtent_eq_ok {blockSize output context count : Nat}
    (extent : candidateExtent blockSize output context = .ok count) :
    count ≤ blockSize ∧ blockSize ≤ speculationMaxBlock ∧ 0 < output ∧ 0 < context ∧
      (0 < count → count + 2 ≤ output ∧ count + 2 ≤ context) := by
  simp only [candidateExtent, bind_eq_ok, require_eq_ok, bne_iff_ne, Bool.and_eq_true,
    decide_eq_true_eq] at extent
  rcases extent with ⟨_, ⟨⟨⟨_, small⟩, outputs⟩, contexts⟩, extent⟩
  split at extent
  · simp only [pure_eq_ok] at extent
    omega
  · rename_i roomy
    simp only [pure_eq_ok] at extent
    omega

theorem commitPlanBuild_acceptanceOf (request : AcceptanceRequest)
    (small : request.candidateTokenIds.length ≤ speculationMaxBlock) (positive : 0 < terminalIndex)
    (within : terminalIndex ≤ agreement request.candidateTokenIds request.targetTokenIds + 2) :
    commitPlanBuild (acceptanceOf request) terminalIndex = .ok (if terminalIndex <
          agreement request.candidateTokenIds request.targetTokenIds + 2 then
        ⟨terminalIndex, terminalIndex + 1, true⟩
      else ⟨terminalIndex, terminalIndex, false⟩) := by
  have bound := agreement_le request.candidateTokenIds request.targetTokenIds
  have committed : (acceptanceOf request).committedCount =
      agreement request.candidateTokenIds request.targetTokenIds + 1 := by
    simp [acceptanceOf, AcceptanceResult.committedCount, bound]
  have fits : u64Add (agreement request.candidateTokenIds request.targetTokenIds + 1) 1 =
      some (agreement request.candidateTokenIds request.targetTokenIds + 2) := by
    have large : speculationMaxBlock + 2 ≤ u64Max := by decide
    exact u64Add_eq_some.mpr ⟨rfl, by omega⟩
  have wellFormed : (require ((acceptanceOf request).committedCount != 0 &&
      (acceptanceOf request).committedCount == (acceptanceOf request).acceptedDraftCount + 1 &&
      (u64Add (acceptanceOf request).committedCount 1).any (terminalIndex ≤ ·))
      .invalidArgument "speculative commit plan is malformed") = .ok () := by
    rw [require_eq_ok, committed, fits]
    simp [acceptanceOf, within]
  rw [commitPlanBuild, wellFormed, committed]
  by_cases terminal : terminalIndex < agreement request.candidateTokenIds request.targetTokenIds + 2
  · simp [bind, Except.bind, pure, Except.pure, terminal, require, ne_of_gt positive]
  have all : terminalIndex =
      agreement request.candidateTokenIds request.targetTokenIds + 2 := by omega
  simp [bind, Except.bind, pure, Except.pure, all]

end Yvex.Runtime
