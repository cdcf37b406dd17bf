import Yvex.Foundation.Inventory

namespace Yvex

open Option List

/-! # Checked machine arithmetic

The C sources keep geometry in `unsigned long long` and add or multiply it only
through helpers that refuse to wrap. Values are naturals here; the helpers keep
the refusal, and plain subtraction keeps the wrap of unsigned arithmetic. -/

/-- `ULLONG_MAX`, which is also `SIZE_MAX` on the admitted 64-bit hosts. -/
def u64Max : Nat := 2 ^ 64 - 1

section

variable (left right : Nat)

/-- `yvex_core_u64_add`: nothing is written when the sum would wrap. -/
def u64Add : Option Nat :=
  if left + right ≤ u64Max then some (left + right) else none

/-- `yvex_core_u64_mul`: nothing is written when the product would wrap. -/
def u64Mul : Option Nat :=
  if left * right ≤ u64Max then some (left * right) else none

def u64Sub : Nat :=
  if right ≤ left then left - right else 2 ^ 64 - (right - left)

end

def ensure (condition : Bool) : Option Unit :=
  if condition then some () else none

variable {condition : Bool}

theorem ensure_eq_some : ensure condition = some result ↔ condition = true := by
  cases condition <;> simp [ensure]

theorem bind_eq_some {value : Option α} {next : α → Option β} : (value >>= next) = some result ↔
    ∃ intermediate, value = some intermediate ∧ next intermediate = some result :=
  bind_eq_some_iff

theorem pure_eq_some {left right : α} : pure left = some right ↔ left = right := some_inj

theorem u64_eq_some : (if value ≤ u64Max then some value else none) = some result ↔
      value = result ∧ result ≤ u64Max := by
  split
  · rename_i fits
    simp only [some.injEq]
    constructor
    · rintro rfl
      exact ⟨rfl, fits⟩
    · exact And.left
  · rename_i wraps
    simp only [reduceCtorEq, false_iff, not_and]
    rintro rfl
    exact wraps

theorem u64Add_eq_some {sum : Nat} :
    u64Add left right = some sum ↔ left + right = sum ∧ sum ≤ u64Max :=
  u64_eq_some

theorem u64Mul_eq_some {product : Nat} : u64Mul left right = some product ↔
      left * right = product ∧ product ≤ u64Max :=
  u64_eq_some

theorem u64Sub_of_le (part : right ≤ left) : u64Sub left right = left - right := if_pos part

/-- The counter wraps exactly when more is taken than it holds. -/
example : u64Sub 1 2 = u64Max := by decide

/-- `yvex_status`, restricted to the codes the modelled owners return. -/
inductive Status where
  | ok
  | noMemory
  | io
  | format
  | unsupported
  | bounds
  | state
  | cancelled
  | invalidArgument
  | tokenCapacity
deriving DecidableEq

/-- What an owner writes into `yvex_error` when it refuses a request. -/
structure Rejection where
  status : Status
  reason : String
deriving DecidableEq

def orReject (value : Option α) (status : Status) (reason : String) : Except Rejection α :=
  match value with
  | some value => .ok value
  | none => .error ⟨status, reason⟩

def require (condition : Bool) (status : Status) (reason : String) : Except Rejection Unit :=
  if condition then .ok () else .error ⟨status, reason⟩

variable {value : Except ε α}

theorem Except.bind_eq_ok {next : α → Except ε β} : (value >>= next) = .ok result ↔
      ∃ intermediate, value = .ok intermediate ∧ next intermediate = .ok result := by
  cases value with
  | error failure => simp [bind, Except.bind]
  | ok intermediate => simp [bind, Except.bind]

theorem pure_eq_ok {left right : α} : pure left = Except.ok (ε := ε) right ↔ left = right := by
  simp [pure, Except.pure]

theorem Except.behind {value : Except ε Unit} {next : Unit → Except ε β}
    (accepted : (value >>= next) = .ok result) : next () = .ok result := by
  obtain ⟨_, _, accepted⟩ := Except.bind_eq_ok.mp accepted
  exact accepted

theorem Except.isOk_iff {value : Except ε Unit} : value.isOk = true ↔ value = .ok () := by
  cases value <;> simp [Except.toBool]

theorem Except.exists_of_isOk (accepted : value.isOk = true) : ∃ result, value = .ok result := by
  cases value with
  | error failure => cases accepted
  | ok result => exact ⟨result, rfl⟩

theorem Except.toOption_eq_some : value.toOption = some result ↔ value = .ok result := by
  cases value <;> simp [Except.toOption]

theorem orReject_eq_ok {value : Option α} :
    orReject value status reason = .ok result ↔ value = some result := by
  cases value <;> simp [orReject]

theorem require_eq_ok : require condition status reason = .ok result ↔ condition = true := by
  cases condition <;> simp [require]

variable {items : List α} (kept : σ → Prop)

theorem foldlM_runs (each : ∀ item ∈ items, ∀ before, kept before →
      ∃ after, step before item = some after ∧ kept after) (start : kept first) : ∃ last,
      items.foldlM step first = some last ∧ kept last := by
  induction items generalizing first with
  | nil => exact ⟨first, rfl, start⟩
  | cons item rest induction => ?_
  rcases each item (by simp) first start with ⟨middle, stepped, keptMiddle⟩
  rcases induction (fun other member => each other (mem_cons_of_mem _ member))
    keptMiddle with ⟨last, ran, keptLast⟩
  refine ⟨last, ?_, keptLast⟩
  rw [foldlM_cons, stepped]
  exact ran

end Yvex
