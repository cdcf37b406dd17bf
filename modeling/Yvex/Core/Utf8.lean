import Mathlib.Tactic.IntervalCases
import Yvex.Foundation.Wire

namespace Yvex.Utf8

open List Option

/-! # UTF-8 scanning

The scanner of `core/json.c` and the table of well-formed byte sequences that it stands for. -/

def within (least greatest : Nat) (byte : UInt8) : Bool :=
  decide (least ≤ byte.toNat) && decide (byte.toNat ≤ greatest)

/-- A byte with `10` in its highest bits. -/
def isContinuation (byte : UInt8) : Bool := byte &&& 0xc0 == 0x80

/-! ## The scanner -/

def leading (first : UInt8) : Option (Nat × Nat) :=
  if within 0xc2 0xdf first then some (1, first.toNat % 32)
  else if within 0xe0 0xef first then some (2, first.toNat % 16)
  else if within 0xf0 0xf4 first then some (3, first.toNat % 8)
  else none

def codePoint (value : Nat) (continuation : Bytes) : Nat :=
  continuation.foldl (fun value byte => value * 64 + byte.toNat % 64) value

/-- `yvex_core_utf8_next`: the code point at the front of a text and the bytes it takes. -/
def next : Bytes → Option (Nat × Nat)
  | [] => none
  | first :: rest =>
    if first.toNat ≤ 0x7f then some (first.toNat, 1)
    else do
      let (needed, bits) ← leading first
      ensure (decide (needed ≤ rest.length))
      ensure ((rest.take needed).all isContinuation)
      let value := codePoint bits (rest.take needed)
      ensure (!(needed == 2 && decide (value < 0x800) || needed == 3 && decide (value < 0x10000) ||
        decide (0x10ffff < value) || (decide (0xd800 ≤ value) && decide (value ≤ 0xdfff))))
      return (value, needed + 1)

/-- The second bytes that `utf8_tail_valid` refuses behind some first bytes. -/
def secondRefused (first second : UInt8) : Bool :=
  first == 0xe0 && decide (second < 0xa0) || first == 0xed && decide (0xa0 ≤ second) ||
    first == 0xf0 && decide (second < 0x90) || first == 0xf4 && decide (0x90 ≤ second)

/-- `utf8_tail_valid`: whether a text can be the beginning of one code point. -/
def tailValid : Bytes → Bool
  | [] => false
  | first :: rest =>
    match leading first with
    | none => false
    | some (needed, _) =>
      decide (rest.length < 3) && decide (rest.length < needed) && rest.all isContinuation &&
        !rest.head?.any (secondRefused first)

/-- The loop of `yvex_core_utf8_prefix`, which takes a byte at least in every round. -/
def prefixLoop : Nat → Bytes → Option Nat
  | _, [] => some 0
  | 0, _ :: _ => none
  | fuel + 1, byte :: text =>
    match next (byte :: text) with
    | some (_, width) => (prefixLoop fuel ((byte :: text).drop width)).map (width + ·)
    | none => if tailValid (byte :: text) then some 0 else none

/-- `yvex_core_utf8_prefix`: the bytes of a text that are complete code points, when the others
can be completed. -/
def utf8Prefix (text : Bytes) : Option Nat := prefixLoop text.length text

/-- The loop of `valid_utf8`, which takes a byte at least in every round. -/
def validLoop : Nat → Bytes → Bool
  | _, [] => true
  | 0, _ :: _ => false
  | fuel + 1, byte :: text =>
    match next (byte :: text) with
    | some (_, width) => validLoop fuel ((byte :: text).drop width)
    | none => false

def valid (text : Bytes) : Bool := validLoop text.length text

/-! ## Well-formed texts -/

def secondBytes (first : UInt8) : Nat × Nat :=
  if first = 0xe0 then (0xa0, 0xbf)
  else if first = 0xed then (0x80, 0x9f)
  else if first = 0xf0 then (0x90, 0xbf)
  else if first = 0xf4 then (0x80, 0x8f)
  else (0x80, 0xbf)

def secondAllowed (first second : UInt8) : Bool :=
  within (secondBytes first).1 (secondBytes first).2 second

def isScalar : Bytes → Bool
  | [first] => within 0 0x7f first
  | [first, second] => within 0xc2 0xdf first && secondAllowed first second
  | [first, second, third] =>
    within 0xe0 0xef first && secondAllowed first second && within 0x80 0xbf third
  | [first, second, third, fourth] =>
    within 0xf0 0xf4 first && secondAllowed first second && within 0x80 0xbf third &&
      within 0x80 0xbf fourth
  | _ => false

inductive WellFormed : Bytes → Prop where
  | nil : WellFormed []
  | cons {scalar rest : Bytes} (one : isScalar scalar = true) (others : WellFormed rest) :
      WellFormed (scalar ++ rest)

def Extensible (text : Bytes) : Prop := ∃ more, WellFormed (text ++ more)

attribute [local simp] within isScalar

/-! ## What the scanner accepts -/

theorem within_iff :
    within least greatest byte = true ↔ least ≤ byte.toNat ∧ byte.toNat ≤ greatest := by
  simp

theorem isContinuation_iff (byte : UInt8) :
    isContinuation byte = true ↔ 0x80 ≤ byte.toNat ∧ byte.toNat ≤ 0xbf := by
  rw [isContinuation, beq_iff_eq, ← UInt8.toNat_inj, UInt8.toNat_and]
  have small := byte.toNat_lt
  generalize byte.toNat = number at small
  interval_cases number <;> decide

/-- The first bytes that restrict the second one. -/
theorem restricting_iff (first : UInt8) :
    (first = 0xe0 ↔ first.toNat = 0xe0) ∧ (first = 0xed ↔ first.toNat = 0xed) ∧
      (first = 0xf0 ↔ first.toNat = 0xf0) ∧ (first = 0xf4 ↔ first.toNat = 0xf4) := by
  simp [← UInt8.toNat_inj]

theorem secondAllowed_iff (first second : UInt8) : secondAllowed first second = true ↔
      0x80 ≤ second.toNat ∧ second.toNat ≤ 0xbf ∧ (first.toNat = 0xe0 → 0xa0 ≤ second.toNat) ∧
        (first.toNat = 0xed → second.toNat ≤ 0x9f) ∧ (first.toNat = 0xf0 → 0x90 ≤ second.toNat) ∧
        (first.toNat = 0xf4 → second.toNat ≤ 0x8f) := by
  rcases restricting_iff first with ⟨e0, ed, f0, f4⟩
  simp only [secondAllowed, within_iff, secondBytes, e0, ed, f0, f4]
  repeat' split
  all_goals
    simp only
    omega

variable {first : UInt8} {rest : Bytes} {point width : Nat}

theorem next_eq_some (large : 0x7f < first.toNat) : next (first :: rest) = some (point, width) ↔
      ∃ needed bits, leading first = some (needed, bits) ∧ needed ≤ rest.length ∧
        (∀ byte ∈ rest.take needed, 0x80 ≤ byte.toNat ∧ byte.toNat ≤ 0xbf) ∧
        point = codePoint bits (rest.take needed) ∧ width = needed + 1 ∧
        ¬ (needed = 2 ∧ point < 0x800) ∧ ¬ (needed = 3 ∧ point < 0x10000) ∧ point ≤ 0x10ffff ∧
        ¬ (0xd800 ≤ point ∧ point ≤ 0xdfff) := by
  rw [next, if_neg (by omega)]
  simp only [bind_eq_some, ensure_eq_some, decide_eq_true_eq,
    List.all_eq_true, isContinuation_iff, pure_eq_some, Prod.mk.injEq,
    Bool.not_eq_true', Bool.or_eq_false_iff, Bool.and_eq_false_iff, decide_eq_false_iff_not,
    beq_eq_false_iff_ne, Prod.exists]
  constructor
  · grind
  · grind

variable {needed bits : Nat}

theorem leading_eq_some : leading first = some (needed, bits) ↔
      (0xc2 ≤ first.toNat ∧ first.toNat ≤ 0xdf ∧ needed = 1 ∧ bits = first.toNat % 32) ∨
        (0xe0 ≤ first.toNat ∧ first.toNat ≤ 0xef ∧ needed = 2 ∧ bits = first.toNat % 16) ∨
        (0xf0 ≤ first.toNat ∧ first.toNat ≤ 0xf4 ∧ needed = 3 ∧ bits = first.toNat % 8) := by
  simp only [leading, within_iff]
  repeat' split
  all_goals
    simp only [Option.some.injEq, Prod.mk.injEq, reduceCtorEq, false_iff]
    omega

variable {text : Bytes}

theorem isScalar_of_next (found : next text = some (point, width)) :
    0 < width ∧ width ≤ text.length ∧ isScalar (text.take width) = true := by
  cases text with
  | nil => cases found
  | cons first rest => ?_
  by_cases small : first.toNat ≤ 0x7f
  · rw [next, if_pos small] at found
    cases found
    refine ⟨Nat.one_pos, Nat.succ_le_succ (Nat.zero_le _), ?_⟩
    exact within_iff.mpr ⟨Nat.zero_le _, small⟩
  obtain ⟨needed, bits, leads, enough, continued, rfl, rfl, two, three, last, surrogate⟩ :=
    (next_eq_some (not_le.mp small)).mp found
  refine ⟨Nat.succ_pos _, Nat.succ_le_succ enough, ?_⟩
  rcases leading_eq_some.mp leads with ⟨low, high, rfl, rfl⟩ | ⟨low, high, rfl, rfl⟩ |
    ⟨low, high, rfl, rfl⟩
  · rcases rest with _ | ⟨second, rest⟩
    · cases enough
    simp only [take_succ_cons, take_zero, forall_mem_cons] at continued ⊢
    rw [isScalar, Bool.and_eq_true, within_iff, secondAllowed_iff]
    omega
  · rcases rest with _ | ⟨second, _ | ⟨third, rest⟩⟩
    · cases enough
    · cases Nat.le_of_succ_le_succ enough
    simp only [take_succ_cons, take_zero, forall_mem_cons, codePoint,
      foldl_cons, foldl_nil, true_and] at continued two surrogate ⊢
    rw [isScalar, Bool.and_eq_true, Bool.and_eq_true, within_iff, secondAllowed_iff, within_iff]
    omega
  · rcases rest with _ | ⟨second, _ | ⟨third, _ | ⟨fourth, rest⟩⟩⟩
    · cases enough
    · cases Nat.le_of_succ_le_succ enough
    · cases Nat.le_of_succ_le_succ (Nat.le_of_succ_le_succ enough)
    simp only [take_succ_cons, take_zero, forall_mem_cons, codePoint,
      foldl_cons, foldl_nil, true_and] at continued three last ⊢
    rw [isScalar, Bool.and_eq_true, Bool.and_eq_true, Bool.and_eq_true, within_iff,
      secondAllowed_iff, within_iff, within_iff]
    omega

theorem next_of_isScalar (one : isScalar scalar = true) (rest : Bytes) :
    ∃ point, next (scalar ++ rest) = some (point, scalar.length) := by
  match scalar, one with
  | [first], one =>
    have small := (within_iff.mp one).2
    exact ⟨first.toNat, if_pos small⟩
  | [first, second], one =>
    rw [isScalar, Bool.and_eq_true, within_iff, secondAllowed_iff] at one
    refine ⟨_, (next_eq_some (by omega)).mpr ⟨1, _, leading_eq_some.mpr
      (.inl ⟨by omega, by omega, rfl, rfl⟩), ?_, ?_, rfl, rfl, ?_⟩⟩
    · simp
    · simp
      omega
    · simp [codePoint]
      omega
  | [first, second, third], one =>
    rw [isScalar, Bool.and_eq_true, Bool.and_eq_true, within_iff, secondAllowed_iff,
      within_iff] at one
    refine ⟨_, (next_eq_some (by omega)).mpr ⟨2, _, leading_eq_some.mpr
      (.inr (.inl ⟨by omega, by omega, rfl, rfl⟩)), ?_, ?_, rfl, rfl, ?_⟩⟩
    · simp
    · simp
      omega
    · simp [codePoint]
      omega
  | [first, second, third, fourth], one =>
    rw [isScalar, Bool.and_eq_true, Bool.and_eq_true, Bool.and_eq_true, within_iff,
      secondAllowed_iff, within_iff, within_iff] at one
    refine ⟨_, (next_eq_some (by omega)).mpr ⟨3, _, leading_eq_some.mpr
      (.inr (.inr ⟨by omega, by omega, rfl, rfl⟩)), ?_, ?_, rfl, rfl, ?_⟩⟩
    · simp
    · simp
      omega
    · simp [codePoint]
      omega

theorem isScalar_cons (leads : leading first = some (needed, bits)) :
    isScalar (first :: rest) = true ↔
      rest.length = needed ∧ (∀ byte ∈ rest, 0x80 ≤ byte.toNat ∧ byte.toNat ≤ 0xbf) ∧
        ∀ second ∈ rest.head?, secondAllowed first second = true := by
  have size := leading_eq_some.mp leads
  rcases rest with _ | ⟨second, _ | ⟨third, _ | ⟨fourth, _ | ⟨fifth, rest⟩⟩⟩⟩
  all_goals simp only [isScalar, Bool.and_eq_true, within_iff, length_cons, length_nil, head?_cons,
    mem_some_iff, forall_eq', forall_mem_cons, secondAllowed_iff, Bool.false_eq_true]
  · constructor <;> intro given <;> omega
  · grind
  · grind
  · grind
  · simp only [false_iff]
    omega

theorem leading_of_isScalar (one : isScalar (first :: rest) = true) :
    rest = [] ∨ ∃ needed bits, leading first = some (needed, bits) := by
  rcases rest with _ | ⟨second, _ | ⟨third, _ | ⟨fourth, _ | ⟨fifth, rest⟩⟩⟩⟩
  · exact .inl rfl
  · rw [isScalar, Bool.and_eq_true, within_iff] at one
    exact .inr ⟨1, _, leading_eq_some.mpr (.inl ⟨one.1.1, one.1.2, rfl, rfl⟩)⟩
  · rw [isScalar, Bool.and_eq_true, Bool.and_eq_true, within_iff] at one
    exact .inr ⟨2, _, leading_eq_some.mpr (.inr (.inl ⟨one.1.1.1, one.1.1.2, rfl, rfl⟩))⟩
  · rw [isScalar, Bool.and_eq_true, Bool.and_eq_true, Bool.and_eq_true, within_iff] at one
    exact .inr ⟨3, _, leading_eq_some.mpr (.inr (.inr ⟨one.1.1.1.1, one.1.1.1.2, rfl, rfl⟩))⟩
  · cases one

theorem secondRefused_iff (continued : 0x80 ≤ second.toNat) (bounded : second.toNat ≤ 0xbf) :
    secondRefused first second = false ↔ secondAllowed first second = true := by
  rcases restricting_iff first with ⟨e0, ed, f0, f4⟩
  have a0 : second < 0xa0 ↔ second.toNat < 0xa0 := UInt8.lt_iff_toNat_lt
  have a0' : 0xa0 ≤ second ↔ 0xa0 ≤ second.toNat := UInt8.le_iff_toNat_le
  have n0 : second < 0x90 ↔ second.toNat < 0x90 := UInt8.lt_iff_toNat_lt
  have n0' : 0x90 ≤ second ↔ 0x90 ≤ second.toNat := UInt8.le_iff_toNat_le
  simp only [secondRefused, Bool.or_eq_false_iff, Bool.and_eq_false_iff, beq_eq_false_iff_ne,
    decide_eq_false_iff_not, ne_eq, e0, ed, f0, f4, a0, a0', n0, n0', secondAllowed_iff]
  omega

theorem tailValid_cons : tailValid (first :: rest) = true ↔
      ∃ needed bits, leading first = some (needed, bits) ∧ rest.length < needed ∧
        (∀ byte ∈ rest, 0x80 ≤ byte.toNat ∧ byte.toNat ≤ 0xbf) ∧
        ∀ second ∈ rest.head?, secondAllowed first second = true := by
  rw [tailValid]
  cases leads : leading first with
  | none => simp
  | some found => ?_
  obtain ⟨needed, bits⟩ := found
  have size := leading_eq_some.mp leads
  simp only [Bool.and_eq_true, decide_eq_true_eq, List.all_eq_true, isContinuation_iff,
    Option.some.injEq, Prod.mk.injEq, Bool.not_eq_true']
  constructor
  · rintro ⟨⟨⟨-, short⟩, continued⟩, second⟩
    refine ⟨needed, bits, ⟨rfl, rfl⟩, short, continued, ?_⟩
    intro other first'
    have bounds := continued other (List.mem_of_mem_head? first')
    apply (secondRefused_iff bounds.1 bounds.2).mp
    rwa [mem_def.mp first'] at second
  rintro ⟨_, _, ⟨rfl, rfl⟩, short, continued, allowed⟩
  refine ⟨⟨⟨by omega, short⟩, continued⟩, ?_⟩
  cases rest with
  | nil => rfl
  | cons other others =>
    have bounds := continued other mem_cons_self
    exact (secondRefused_iff bounds.1 bounds.2).mpr (allowed other rfl)

def leastSecond (first : UInt8) : UInt8 := UInt8.ofNat (secondBytes first).1

theorem leastSecond_allowed (first : UInt8) : secondAllowed first (leastSecond first) = true := by
  rw [secondAllowed, leastSecond, secondBytes]
  repeat' split
  all_goals rfl

theorem tailValid_iff : tailValid text = true ↔
      text ≠ [] ∧ ∃ more, more ≠ [] ∧ isScalar (text ++ more) = true := by
  cases text with
  | nil => simp [tailValid]
  | cons first rest => ?_
  rw [tailValid_cons]
  constructor
  · rintro ⟨needed, bits, leads, short, continued, allowed⟩
    refine ⟨cons_ne_nil _ _, ?_⟩
    -- The least second byte and then zeros as continuation complete any beginning.
    have zeros : ∀ count, ∀ byte ∈ List.replicate count (0x80 : UInt8),
        0x80 ≤ byte.toNat ∧ byte.toNat ≤ 0xbf := by
      intro count byte member
      rw [eq_of_mem_replicate member]
      decide
    cases rest with
    | nil =>
      refine ⟨leastSecond first :: List.replicate (needed - 1) 0x80, cons_ne_nil _ _, ?_⟩
      have second := leastSecond_allowed first
      have bounds := (secondAllowed_iff _ _).mp second
      rw [cons_append, nil_append, isScalar_cons leads]
      refine ⟨?_, forall_mem_cons.mpr ⟨⟨bounds.1, bounds.2.1⟩, zeros _⟩, ?_⟩
      · rw [length_cons, length_replicate]
        omega
      · intro other same
        cases same
        exact second
    | cons second rest =>
      refine ⟨List.replicate (needed - (rest.length + 1)) 0x80, ?_, ?_⟩
      · rw [ne_eq, replicate_eq_nil_iff]
        rw [length_cons] at short
        omega
      rw [cons_append, isScalar_cons leads]
      refine ⟨?_, ?_, ?_⟩
      · rw [length_append, length_replicate, length_cons]
        rw [length_cons] at short
        omega
      · grind
      · exact allowed
  · rintro ⟨-, more, longer, one⟩
    rw [cons_append] at one
    rcases leading_of_isScalar one with empty | ⟨needed, bits, leads⟩
    · exact absurd (append_eq_nil_iff.mp empty).2 longer
    obtain ⟨size, continued, allowed⟩ := (isScalar_cons leads).mp one
    have some : 0 < more.length := length_pos_iff.mpr longer
    rw [length_append] at size
    refine ⟨needed, bits, leads, by omega, ?_, ?_⟩
    · exact fun byte member => continued byte (mem_append_left more member)
    intro second first'
    apply allowed second
    rw [head?_append, mem_def.mp first']
    rfl

/-! ## The prefix of complete code points -/

theorem isScalar_ne_nil (one : isScalar scalar = true) : scalar ≠ [] := by
  rintro rfl
  cases one

theorem scalar_unique (one : isScalar scalar = true) (one' : isScalar other = true)
    (same : scalar ++ rest = other ++ rest') : scalar = other ∧ rest = rest' := by
  obtain ⟨point, found⟩ := next_of_isScalar one rest
  obtain ⟨point', found'⟩ := next_of_isScalar one' rest'
  rw [same, found', Option.some.injEq, Prod.mk.injEq] at found
  exact append_inj same found.2.symm

theorem wellFormed_scalar (one : isScalar scalar = true) :
    WellFormed (scalar ++ rest) ↔ WellFormed rest := by
  constructor
  · intro formed
    generalize whole : scalar ++ rest = text at formed
    cases formed with
    | nil => exact absurd (append_eq_nil_iff.mp whole).1 (isScalar_ne_nil one)
    | cons one' others =>
      obtain ⟨-, rfl⟩ := scalar_unique one one' whole
      exact others
  · exact WellFormed.cons one

theorem WellFormed.append_iff (formed : WellFormed text) :
    WellFormed (text ++ more) ↔ WellFormed more := by
  induction formed with
  | nil => exact Iff.rfl
  | cons one others induction =>
    rw [append_assoc, wellFormed_scalar one]
    exact induction

theorem WellFormed.extensible_iff (formed : WellFormed text) :
    Extensible (text ++ more) ↔ Extensible more := by
  simp only [Extensible, append_assoc, formed.append_iff]

theorem WellFormed.extensible (formed : WellFormed text) : Extensible text :=
  ⟨[], by rwa [append_nil]⟩

theorem WellFormed.single (one : isScalar scalar = true) : WellFormed scalar := by
  have formed := WellFormed.cons one WellFormed.nil
  rwa [append_nil] at formed

theorem extensible_of_tailValid (valid : tailValid text = true) : Extensible text := by
  obtain ⟨-, more, -, one⟩ := tailValid_iff.mp valid
  exact ⟨more, WellFormed.single one⟩

theorem extensible_of_next_none (present : text ≠ []) (stopped : next text = none) :
    Extensible text ↔ tailValid text = true := by
  constructor
  · rintro ⟨more, formed⟩
    generalize whole : text ++ more = stream at formed
    cases formed with
    | nil => exact absurd (append_eq_nil_iff.mp whole).1 present
    | @cons scalar rest one others =>
      rcases append_eq_append_iff.mp whole with ⟨middle, equal, -⟩ | ⟨middle, equal, -⟩
      · rw [tailValid_iff]
        refine ⟨present, middle, ?_, equal ▸ one⟩
        rintro rfl
        rw [append_nil] at equal
        obtain ⟨point, found⟩ := next_of_isScalar one []
        rw [append_nil, equal, stopped] at found
        cases found
      · obtain ⟨point, found⟩ := next_of_isScalar one middle
        rw [← equal, stopped] at found
        cases found
  · exact extensible_of_tailValid

/-- What the prefix of a text is: complete code points, and behind them nothing or the beginning
of one. -/
def Splits (text : Bytes) (count : Nat) : Prop :=
  count ≤ text.length ∧ WellFormed (text.take count) ∧
    (text.drop count = [] ∨ tailValid (text.drop count) = true)

variable {count : Nat}

theorem prefixLoop_eq_some (found : prefixLoop fuel text = some count) : Splits text count := by
  induction fuel generalizing text count with
  | zero =>
    cases text with
    | nil =>
      cases found
      exact ⟨le_rfl, .nil, .inl rfl⟩
    | cons byte text => cases found
  | succ fuel induction =>
    cases text with
    | nil =>
      cases found
      exact ⟨le_rfl, .nil, .inl rfl⟩
    | cons byte text => ?_
    rw [prefixLoop] at found
    cases scanned : next (byte :: text) with
    | none =>
      simp only [scanned] at found
      split at found
      · rename_i valid
        cases found
        exact ⟨Nat.zero_le _, .nil, .inr valid⟩
      · cases found
    | some taken =>
      simp only [scanned] at found
      obtain ⟨later, behind, rfl⟩ := map_eq_some_iff.mp found
      obtain ⟨-, fits, one⟩ := isScalar_of_next scanned
      obtain ⟨within, formed, rest⟩ := induction behind
      rw [length_drop] at within
      refine ⟨by omega, ?_, ?_⟩
      · rw [take_add]
        exact .cons one formed
      · rwa [← drop_drop]

theorem length_drop_le {text : Bytes} (positive : 0 < width) (enough : text.length ≤ fuel + 1) :
    (text.drop width).length ≤ fuel := by
  rw [length_drop]
  omega

theorem prefixLoop_isSome (enough : text.length ≤ fuel) :
    (prefixLoop fuel text).isSome = true ↔ Extensible text := by
  induction fuel generalizing text with
  | zero =>
    cases eq_nil_of_length_eq_zero (Nat.le_zero.mp enough)
    simp [prefixLoop, WellFormed.nil.extensible]
  | succ fuel induction => ?_
  cases text with
  | nil => simp [prefixLoop, WellFormed.nil.extensible]
  | cons byte text => ?_
  rw [prefixLoop]
  cases scanned : next (byte :: text) with
  | none =>
    rw [extensible_of_next_none (cons_ne_nil _ _) scanned]
    split <;> simp_all
  | some taken => ?_
  obtain ⟨point, width⟩ := taken
  obtain ⟨positive, fits, one⟩ := isScalar_of_next scanned
  have shorter := length_drop_le positive enough
  simp only [isSome_map, induction shorter]
  rw [← (WellFormed.single one).extensible_iff, take_append_drop]

theorem utf8Prefix_eq_some (found : utf8Prefix text = some count) : Splits text count :=
  prefixLoop_eq_some found

theorem utf8Prefix_isSome : (utf8Prefix text).isSome = true ↔ Extensible text :=
  prefixLoop_isSome le_rfl

theorem eq_nil_of_tailValid (valid : tailValid (front ++ rest) = true)
    (formed : WellFormed front) : front = [] := by
  obtain ⟨-, more, longer, one⟩ := tailValid_iff.mp valid
  cases formed with
  | nil => rfl
  | @cons scalar others one' _ =>
    rw [append_assoc, append_assoc] at one
    have same : (scalar ++ (others ++ (rest ++ more))) ++ [] =
        scalar ++ (others ++ (rest ++ more)) := append_nil _
    obtain ⟨-, empty⟩ := scalar_unique one one' same
    rw [← append_assoc] at empty
    exact absurd (append_eq_nil_iff.mp empty.symm).2 longer

theorem not_wellFormed_of_tailValid (valid : tailValid text = true) : ¬ WellFormed text := by
  intro formed
  rw [← append_nil text] at valid
  exact (tailValid_iff.mp valid).1 (by rw [eq_nil_of_tailValid valid formed, append_nil])

theorem length_of_tailValid (valid : tailValid text = true) : text.length ≤ 3 := by
  cases text with
  | nil => exact Nat.zero_le _
  | cons first rest => ?_
  obtain ⟨needed, bits, leads, short, -⟩ := tailValid_cons.mp valid
  have size := leading_eq_some.mp leads
  rw [length_cons]
  omega

theorem Splits.eq_length (splits : Splits text count) (formed : WellFormed text) :
    count = text.length := by
  obtain ⟨fits, front, behind⟩ := splits
  have rest : WellFormed (text.drop count) := by rwa [← front.append_iff, take_append_drop]
  rcases behind with empty | valid
  · have short := drop_eq_nil_iff.mp empty
    omega
  · exact absurd rest (not_wellFormed_of_tailValid valid)

theorem Splits.extensible (splits : Splits text count) : Extensible text := by
  rw [← take_append_drop count text, splits.2.1.extensible_iff]
  rcases splits.2.2 with empty | valid
  · rw [empty]
    exact WellFormed.nil.extensible
  · exact extensible_of_tailValid valid

theorem Splits.le (splits : Splits text count) (fits' : other ≤ text.length)
    (front' : WellFormed (text.take other)) : other ≤ count := by
  by_contra more
  obtain ⟨fits, front, behind⟩ := splits
  have whole : text.take other = text.take count ++ (text.drop count).take (other - count) := by
    rw [← take_add]
    congr 1
    omega
  rw [whole, front.append_iff] at front'
  have size : ((text.drop count).take (other - count)).length = other - count := by
    rw [length_take, length_drop]
    omega
  rcases behind with empty | valid
  · rw [empty, take_nil, length_nil] at size
    omega
  · rw [← take_append_drop (other - count) (text.drop count)] at valid
    rw [eq_nil_of_tailValid valid front', length_nil] at size
    omega

theorem Splits.of_drop (formed : WellFormed (text.take validated)) (fits : validated ≤ text.length)
    (splits : Splits (text.drop validated) count) : Splits text (validated + count) := by
  obtain ⟨within, front, behind⟩ := splits
  rw [length_drop] at within
  refine ⟨by omega, ?_, ?_⟩
  · rw [take_add]
    exact formed.append_iff.mpr front
  · rwa [drop_drop] at behind

theorem Splits.wellFormed_iff (splits : Splits text count) :
    WellFormed text ↔ count = text.length := by
  refine ⟨splits.eq_length, ?_⟩
  rintro rfl
  have formed := splits.2.1
  rwa [take_length] at formed

theorem validLoop_iff (enough : text.length ≤ fuel) :
    validLoop fuel text = true ↔ WellFormed text := by
  induction fuel generalizing text with
  | zero =>
    cases eq_nil_of_length_eq_zero (Nat.le_zero.mp enough)
    exact iff_of_true rfl .nil
  | succ fuel induction => ?_
  cases text with
  | nil => exact iff_of_true rfl .nil
  | cons byte text => ?_
  rw [validLoop]
  cases scanned : next (byte :: text) with
  | none =>
    refine iff_of_false Bool.false_ne_true fun formed => ?_
    generalize whole : byte :: text = bytes at formed scanned
    cases formed with
    | nil => cases whole
    | @cons scalar others one _ =>
      obtain ⟨point, found⟩ := next_of_isScalar one others
      cases found.symm.trans scanned
  | some taken =>
    obtain ⟨point, width⟩ := taken
    obtain ⟨positive, fits, one⟩ := isScalar_of_next scanned
    have shorter := length_drop_le positive enough
    simp only [induction shorter]
    rw [← wellFormed_scalar one, take_append_drop]

/-- The validator of the completions accepts exactly the well-formed texts. -/
theorem valid_iff (text : Bytes) : valid text = true ↔ WellFormed text := validLoop_iff le_rfl

/-- The scanner accepts the beginnings of well-formed texts, and returns the longest part in front
that is well-formed; at most three bytes are left. -/
theorem utf8Prefix_exact (text : Bytes) : ((utf8Prefix text).isSome = true ↔ Extensible text) ∧
    ∀ count, utf8Prefix text = some count → count ≤ text.length ∧ WellFormed (text.take count) ∧
      (∀ other ≤ text.length, WellFormed (text.take other) → other ≤ count) ∧
      text.length - count ≤ 3 := by
  refine ⟨utf8Prefix_isSome, fun count found => ?_⟩
  have splits := utf8Prefix_eq_some found
  refine ⟨splits.1, splits.2.1, fun other => splits.le, ?_⟩
  rw [← length_drop]
  rcases splits.2.2 with empty | valid
  · rw [empty]
    exact Nat.zero_le 3
  · exact length_of_tailValid valid

end Yvex.Utf8
