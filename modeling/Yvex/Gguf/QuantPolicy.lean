import Yvex.Foundation.Wire

namespace Yvex.Gguf

open List

/-! # Quantization policies

A policy is a list of rules, each with a matcher, an action and a priority. The action for a
terminal is that of the matching rules of the highest priority. -/

inductive TransformOperation where
  | identity
  | decodeScalePair
  | checkedCast
  | reshape
  | transpose
  | concatenate
  | stack
  | aggregate
  | expertAggregate
deriving DecidableEq

/-- `yvex_quant_policy_operation`: the number of an operation is one above that of its kind. -/
inductive PolicyOperation where
  | any
  | of (kind : TransformOperation)
deriving DecidableEq

inductive PhysicalClass where
  | any
  | exact
  | quantizable
deriving DecidableEq

/-- The matchers of `yvex_quant_policy_rule`. One whose bit is not set in `match_mask` is absent. -/
structure RuleMatch where
  role : Option Nat
  collection : Option Nat
  scope : Option Nat
  tensorName : Option Bytes
  tensorPattern : Option Bytes
  layerRange : Option (Nat × Nat)
  expertGroup : Option Nat
  operation : Option PolicyOperation
  physicalClass : Option PhysicalClass
  isDefault : Bool
deriving DecidableEq

structure RuleAction where
  qtype : Nat
  requiresImatrix : Bool
  requiresCpuCompute : Bool
  requiresCudaCompute : Bool
deriving DecidableEq

structure PolicyRule where
  matcher : RuleMatch
  action : RuleAction
  priority : Nat
deriving DecidableEq

/-- What a rule is compared with, of a terminal, its node and its lowering descriptor. A descriptor
without a layer has none for `ULLONG_MAX`. -/
structure PolicyTarget where
  role : Nat
  groupIndex : Nat
  quantizableWeight : Bool
  kind : TransformOperation
  collection : Nat
  scope : Nat
  emittedName : Bytes
  layerIndex : Option Nat

def quantPolicyPatternMatches (pattern name : Bytes) : Bool :=
  let front := pattern.takeWhile (· != 42)
  match pattern.dropWhile (· != 42) with
  | [] => pattern == name
  | _ :: behind =>
    !behind.contains 42 && decide (front.length + behind.length ≤ name.length) &&
      name.take front.length == front && name.drop (name.length - behind.length) == behind

def PolicyTarget.physical (target : PolicyTarget) : PhysicalClass :=
  if target.quantizableWeight then .quantizable else .exact

def quantPolicyRuleMatches (rule : RuleMatch) (target : PolicyTarget) : Bool :=
  rule.role.all (· == target.role) && rule.collection.all (· == target.collection) &&
    rule.scope.all (· == target.scope) && rule.tensorName.all (· == target.emittedName) &&
    rule.tensorPattern.all (quantPolicyPatternMatches · target.emittedName) &&
    rule.layerRange.all (fun range => target.layerIndex.any fun layer =>
      decide (range.1 ≤ layer) && decide (layer ≤ range.2)) &&
    rule.expertGroup.all (target.groupIndex == ·) && rule.operation.all (· == .of target.kind) &&
    rule.physicalClass.all (· == target.physical)

inductive MatchMember where
  | role (role : Option Nat)
  | collection (collection : Option Nat)
  | scope (scope : Option Nat)
  | tensorName (name : Bytes)
  | tensorPattern (pattern : Bytes)
  | layerFirst (layer : Nat)
  | layerLast (layer : Nat)
  | expertGroup (group : Nat)
  | operation (name : String)
  | physicalClass (name : String)
  | isDefault (value : Bool)
  | unknown

def operationNames : List (String × PolicyOperation) :=
  [("any", .any), ("identity", .of .identity), ("decode_scale_pair", .of .decodeScalePair),
    ("checked_cast", .of .checkedCast), ("reshape", .of .reshape), ("transpose", .of .transpose),
    ("concatenate", .of .concatenate), ("stack", .of .stack), ("aggregate", .of .aggregate),
    ("expert_aggregate", .of .expertAggregate)]

def physicalClassNames : List (String × PhysicalClass) :=
  [("any", .any), ("exact", .exact), ("quantizable", .quantizable)]

structure MatchReading where
  rule : RuleMatch
  layerFirst : Option Nat
  layerLast : Option Nat

def emptyMatch : RuleMatch := ⟨none, none, none, none, none, none, none, none, none, false⟩

/-- One round of `policy_parse_match`. -/
def parseMember (reading : MatchReading) : MatchMember → Except Rejection MatchReading
  | .role role => do
    let role ← orReject role .format "unknown role matcher"
    return { reading with rule := { reading.rule with role := some role } }
  | .collection collection => do
    let collection ← orReject collection .format "unknown collection matcher"
    return { reading with rule := { reading.rule with collection := some collection } }
  | .scope scope => do
    let scope ← orReject scope .format "unknown scope matcher"
    return { reading with rule := { reading.rule with scope := some scope } }
  | .tensorName name => .ok { reading with rule := { reading.rule with tensorName := some name } }
  | .tensorPattern pattern =>
    .ok { reading with rule := { reading.rule with tensorPattern := some pattern } }
  | .layerFirst layer => .ok { reading with layerFirst := some layer }
  | .layerLast layer => .ok { reading with layerLast := some layer }
  | .expertGroup group =>
    .ok { reading with rule := { reading.rule with expertGroup := some group } }
  | .operation name => do
    let operation ← orReject (operationNames.lookup name) .format "unknown operation matcher"
    return { reading with rule := { reading.rule with operation := some operation } }
  | .physicalClass name => do
    let physical ← orReject (physicalClassNames.lookup name) .format
      "unknown physical class matcher"
    return { reading with rule := { reading.rule with physicalClass := some physical } }
  | .isDefault value => do
    require value .format "default matcher must be true"
    return { reading with rule := { reading.rule with isDefault := true } }
  | .unknown => .error ⟨.format, "unknown executable policy matcher"⟩

def policyParseMatch (members : List MatchMember) : Except Rejection RuleMatch := do
  let reading ← members.foldlM parseMember ⟨emptyMatch, none, none⟩
  let rule ← match reading.layerFirst, reading.layerLast with
    | none, none => .ok reading.rule
    | some first, some last => do
      require (decide (first ≤ last)) .format "layer matcher requires an ordered closed range"
      return { reading.rule with layerRange := some (first, last) }
    | _, _ => .error ⟨.format, "layer matcher requires an ordered closed range"⟩
  require (rule != emptyMatch) .format "empty policy matcher is forbidden"
  return rule

section

variable (target : PolicyTarget)

def PolicyRule.fires (rule : PolicyRule) : Bool := quantPolicyRuleMatches rule.matcher target

/-- One round of `quant_policy_resolve`, with the rule selected so far and its ordinal. -/
def resolveRule (selected : Option (PolicyRule × Nat)) (entry : PolicyRule × Nat) :
    Except Rejection (Option (PolicyRule × Nat)) :=
  if entry.1.fires target = false then .ok selected
  else match selected with
    | none => .ok (some entry)
    | some held =>
      if held.1.priority < entry.1.priority then .ok (some entry)
      else if entry.1.priority = held.1.priority ∧ entry.1.action ≠ held.1.action then
        .error ⟨.format, "equal-priority policy actions conflict"⟩
      else .ok selected

section

variable (rules : List PolicyRule)

def quantPolicyResolve : Except Rejection (PolicyRule × Nat) := do
  let selected ← rules.zipIdx.foldlM (resolveRule target) none
  orReject selected .format "quantizable terminal has no matching policy rule or default"

/-- A matching rule of the highest priority among the matching ones. -/
def Highest (rule : PolicyRule) : Prop := rule ∈ rules ∧ rule.fires target = true ∧
    ∀ other ∈ rules, other.fires target = true → other.priority ≤ rule.priority

def HighestAgree : Prop :=
  ∀ left right, Highest target rules left → Highest target rules right → left.action = right.action

def EachAgree : Prop :=
  ∀ left ∈ rules, ∀ right ∈ rules, left.fires target = true → right.fires target = true →
    left.priority = right.priority → left.action = right.action

/-- Rules in some order are resolved to the one action of the highest priority. -/
structure Resolves (rules listed : List PolicyRule) : Prop where
  succeeds : (∃ selected, quantPolicyResolve target listed = .ok selected) ↔
    (∃ rule ∈ rules, rule.fires target = true) ∧ HighestAgree target rules
  selects : ∀ selected, quantPolicyResolve target listed = .ok selected →
    ∀ rule, Highest target rules rule → rule.action = selected.1.action

/-- The rule without the matchers that were written as `any`. -/
def PolicyRule.unrestricted (rule : PolicyRule) : PolicyRule :=
  { rule with matcher := { rule.matcher with
    operation := rule.matcher.operation.filter (· != .any)
    physicalClass := rule.matcher.physicalClass.filter (· != .any) } }

def Covers (held rule : PolicyRule) : Prop :=
  rule.priority < held.priority ∨ rule.priority = held.priority ∧ rule.action = held.action

def Selects : Option (PolicyRule × Nat) → Prop
  | none => ∀ rule ∈ rules, rule.fires target = false
  | some held => held.1 ∈ rules ∧ held.1.fires target = true ∧
      ∀ rule ∈ rules, rule.fires target = true → Covers held.1 rule

end

variable {target} {rules seen : List PolicyRule} {selected result : Option (PolicyRule × Nat)}
  {entry : PolicyRule × Nat}

section

variable (selects : Selects target seen selected)

include selects

theorem resolveRule_selects (ran : resolveRule target selected entry = .ok result) :
    Selects target (seen ++ [entry.1]) result := by
  have last : entry.1 ∈ seen ++ [entry.1] := by simp
  unfold resolveRule at ran
  by_cases silent : entry.1.fires target = false
  · rw [if_pos silent] at ran
    cases ran
    cases selected with
    | none => exact forall_mem_append.mpr ⟨selects, forall_mem_singleton.mpr silent⟩
    | some held => ?_
    obtain ⟨member, fires, covers⟩ := selects
    refine ⟨mem_append_left _ member, fires, forall_mem_append.mpr ⟨covers, ?_⟩⟩
    simp [silent]
  rw [if_neg silent] at ran
  rw [Bool.not_eq_false] at silent
  cases selected with
  | none =>
    cases ran
    refine ⟨last, silent, forall_mem_append.mpr ⟨?_, ?_⟩⟩
    · intro rule member fires
      rw [selects rule member] at fires
      cases fires
    · exact forall_mem_singleton.mpr fun _ => .inr ⟨rfl, rfl⟩
  | some held =>
    obtain ⟨member, fires, covers⟩ := selects
    dsimp only at ran
    split at ran
    · rename_i higher
      cases ran
      refine ⟨last, silent, forall_mem_append.mpr ⟨?_, ?_⟩⟩
      · intro rule member fires
        have below := covers rule member fires
        exact .inl (by unfold Covers at below; omega)
      · exact forall_mem_singleton.mpr fun _ => .inr ⟨rfl, rfl⟩
    split at ran
    · cases ran
    rename_i lower clear
    cases ran
    refine ⟨mem_append_left _ member, fires, forall_mem_append.mpr ⟨covers, ?_⟩⟩
    refine forall_mem_singleton.mpr fun _ => ?_
    rcases Nat.lt_or_eq_of_le (not_lt.mp lower) with less | same
    · exact .inl less
    · exact .inr ⟨same, by_contra fun different => clear ⟨same, different⟩⟩

theorem resolveRule_runs (agree : EachAgree target (seen ++ [entry.1])) :
    ∃ result, resolveRule target selected entry = .ok result := by
  unfold resolveRule
  split
  · exact ⟨_, rfl⟩
  rename_i fires
  rw [Bool.not_eq_false] at fires
  cases selected with
  | none => exact ⟨_, rfl⟩
  | some held => ?_
  dsimp only
  split
  · exact ⟨_, rfl⟩
  rw [if_neg]
  · exact ⟨_, rfl⟩
  intro conflict
  exact conflict.2 (agree _ (by simp) _ (mem_append_left _ selects.1) fires
    selects.2.1 conflict.1)

theorem foldlM_selects {entries : List (PolicyRule × Nat)}
    (ran : entries.foldlM (resolveRule target) selected = .ok result) :
    Selects target (seen ++ entries.map Prod.fst) result := by
  induction entries generalizing seen selected with
  | nil =>
    cases ran
    simpa using selects
  | cons entry entries induction => ?_
  obtain ⟨next, one, ran⟩ := Except.bind_eq_ok.mp ran
  simpa using induction (resolveRule_selects selects one) ran

theorem foldlM_runs_of_agree {entries : List (PolicyRule × Nat)}
    (agree : EachAgree target (seen ++ entries.map Prod.fst)) :
    ∃ result, entries.foldlM (resolveRule target) selected = .ok result := by
  induction entries generalizing seen selected with
  | nil => exact ⟨_, rfl⟩
  | cons entry entries induction => ?_
  have whole : seen ++ (entry :: entries).map Prod.fst =
      (seen ++ [entry.1]) ++ entries.map Prod.fst := by simp
  rw [whole] at agree
  obtain ⟨next, one⟩ := @resolveRule_runs target seen selected entry selects
    fun left inLeft right inRight => agree left (mem_append_left _ inLeft) right
      (mem_append_left _ inRight)
  obtain ⟨result, ran⟩ := induction (resolveRule_selects selects one) agree
  exact ⟨result, Except.bind_eq_ok.mpr ⟨next, one, ran⟩⟩

end

variable {held : PolicyRule × Nat}

theorem quantPolicyResolve_selects (ran : quantPolicyResolve target rules = .ok held) :
    Selects target rules (some held) := by
  obtain ⟨selected, ran, found⟩ := Except.bind_eq_ok.mp ran
  cases orReject_eq_ok.mp found
  have selects := @foldlM_selects target [] none _ (by simp [Selects]) _ ran
  simpa [zipIdx_map_fst] using selects

theorem quantPolicyResolve_runs (fires : ∃ rule ∈ rules, rule.fires target = true)
    (agree : EachAgree target rules) : ∃ held, quantPolicyResolve target rules = .ok held := by
  have same : rules.zipIdx.map Prod.fst = rules := zipIdx_map_fst 0 rules
  obtain ⟨selected, ran⟩ := @foldlM_runs_of_agree target [] none (by simp [Selects]) rules.zipIdx
    (by simpa [same] using agree)
  have selects := @foldlM_selects target [] none selected (by simp [Selects]) _ ran
  rw [same] at selects
  cases selected with
  | none =>
    obtain ⟨rule, member, fires⟩ := fires
    rw [selects rule member] at fires
    cases fires
  | some held => exact ⟨held, Except.bind_eq_ok.mpr ⟨some held, ran, rfl⟩⟩

theorem Selects.highest (selects : Selects target rules (some held))
    (highest : Highest target rules rule) : rule.action = held.1.action := by
  obtain ⟨member, fires, covers⟩ := selects
  have below := highest.2.2 held.1 member fires
  rcases covers rule highest.1 highest.2.1 with less | same
  · omega
  · exact same.2

/-- Two rules of one priority that disagree are refused where they come first. -/
theorem quantPolicyResolve_conflict (fires : left.fires target = true)
    (fires' : right.fires target = true) (same : left.priority = right.priority)
    (different : left.action ≠ right.action) :
    ∀ held, quantPolicyResolve target (left :: right :: others) ≠ .ok held := by
  intro held ran
  obtain ⟨selected, ran, -⟩ := Except.bind_eq_ok.mp ran
  simp [resolveRule, fires, fires', same, Ne.symm different, bind, Except.bind]
    at ran

theorem fires_unrestricted {rule : PolicyRule} : rule.fires target = true ↔
    rule.unrestricted.fires target = true ∧ rule.unrestricted = rule := by
  refine ⟨fun fires => ?_, fun both => both.2 ▸ both.1⟩
  have same : rule.unrestricted = rule := by
    have parts := fires
    simp only [PolicyRule.fires, quantPolicyRuleMatches, Bool.and_eq_true, Option.all_eq_true,
      beq_iff_eq] at parts
    have operation : rule.matcher.operation.filter (· != .any) = rule.matcher.operation := by
      cases held : rule.matcher.operation with
      | none => rfl
      | some operation =>
        rw [parts.1.2 operation held]
        rfl
    have physical : rule.matcher.physicalClass.filter (· != .any) = rule.matcher.physicalClass := by
      cases held : rule.matcher.physicalClass with
      | none => rfl
      | some physical =>
        rw [parts.2 physical held, PolicyTarget.physical]
        cases target.quantizableWeight <;> rfl
    rw [PolicyRule.unrestricted, operation, physical]
  exact ⟨same.symm ▸ fires, same⟩

/-- The rules of a policy are resolved by their priorities in every order, and a matcher `any`
restricts nothing, exactly where the rules of the lower priorities agree as well and no rule that
could match has such a matcher. -/
theorem quantPolicyResolve_by_priority (target : PolicyTarget) (rules : List PolicyRule) :
    ((∀ listed, listed.Perm rules → Resolves target rules listed) ∧
      ∀ rule ∈ rules, rule.fires target = rule.unrestricted.fires target) ↔
    (HighestAgree target rules → EachAgree target rules) ∧
      ∀ rule ∈ rules, rule.unrestricted.fires target = true → rule.unrestricted = rule := by
  refine and_congr ?_ (forall₂_congr fun rule _ => ?_)
  · constructor
    · intro resolves highest left inLeft right inRight fires fires' same
      by_contra different
      have distinct : right ∈ rules.erase left :=
        (mem_erase_of_ne fun equal => different (by rw [equal])).mpr inRight
      have order : (left :: right :: (rules.erase left).erase right).Perm rules :=
        ((perm_cons_erase distinct).symm.cons left).trans (perm_cons_erase inLeft).symm
      obtain ⟨held, ran⟩ := (resolves _ order).succeeds.mpr ⟨⟨left, inLeft, fires⟩, highest⟩
      exact quantPolicyResolve_conflict fires fires' same different held ran
    intro agree listed order
    have member : ∀ rule, rule ∈ listed ↔ rule ∈ rules := fun rule => order.mem_iff
    have highest : ∀ rule, Highest target listed rule ↔ Highest target rules rule := by
      simp [Highest, member]
    constructor
    · constructor
      · rintro ⟨held, ran⟩
        have selects := quantPolicyResolve_selects ran
        refine ⟨⟨held.1, (member _).mp selects.1, selects.2.1⟩, fun left right first second => ?_⟩
        rw [selects.highest ((highest _).mpr first), selects.highest ((highest _).mpr second)]
      · rintro ⟨fires, agrees⟩
        apply quantPolicyResolve_runs (by simpa [member] using fires)
        simpa [EachAgree, member] using agree agrees
    · intro held ran rule first
      exact (quantPolicyResolve_selects ran).highest ((highest rule).mpr first)
  · rw [Bool.eq_iff_iff, fires_unrestricted]
    tauto

end

def plainTarget : PolicyTarget := ⟨0, 0, true, .identity, 0, 0, [], none⟩

def defaultRule (qtype priority : Nat) : PolicyRule :=
  ⟨{ emptyMatch with isDefault := true }, ⟨qtype, false, true, true⟩, priority⟩

/-- Two rules of a low priority that disagree hide the rule of a high one behind them, and a matcher
that was written as `any` lets nothing through. -/
theorem quantPolicyResolve_order : (∃ held, quantPolicyResolve plainTarget
      [defaultRule 3 2, defaultRule 1 1, defaultRule 2 1] = .ok held) ∧
    quantPolicyResolve plainTarget [defaultRule 1 1, defaultRule 2 1, defaultRule 3 2] =
      .error ⟨.format, "equal-priority policy actions conflict"⟩ ∧
    (∃ rule, policyParseMatch [.operation "any"] = .ok rule ∧
      quantPolicyRuleMatches rule plainTarget = false) ∧
    ∃ rule, policyParseMatch [.physicalClass "any"] = .ok rule ∧
      quantPolicyRuleMatches rule plainTarget = false :=
  ⟨⟨_, rfl⟩, rfl, ⟨_, rfl, rfl⟩, ⟨_, rfl, rfl⟩⟩

end Yvex.Gguf
