import Yvex.Core.Json

namespace Yvex.Json

open List Option Prod

/-! # JSON values

What a JSON text stands for. The reader takes the texts apart as the scanner does and keeps what
it finds, so that two texts can be compared by their values. -/

mutual

/-- A number without fraction and exponent is an integer; any other one is kept as written. -/
inductive Value where
  | null
  | boolean (value : Bool)
  | integer (value : Int)
  | decimal (literal : Bytes)
  | string (content : Bytes)
  | collection (kind : Collection) (items : Items)

inductive Items where
  | nil
  | cons (key : Bytes) (value : Value) (others : Items)

end

deriving instance DecidableEq for Value
deriving instance DecidableEq for Items

def Items.ofList : List (Bytes × Value) → Items
  | [] => .nil
  | (key, value) :: others => .cons key value (ofList others)

def encode (point : Nat) : Bytes :=
  if point ≤ 0x7f then [UInt8.ofNat point]
  else if point ≤ 0x7ff then [UInt8.ofNat (0xc0 + point / 64), UInt8.ofNat (0x80 + point % 64)]
  else if point ≤ 0xffff then
    [UInt8.ofNat (0xe0 + point / 4096), UInt8.ofNat (0x80 + point / 64 % 64),
      UInt8.ofNat (0x80 + point % 64)]
  else
    [UInt8.ofNat (0xf0 + point / 262144), UInt8.ofNat (0x80 + point / 4096 % 64),
      UInt8.ofNat (0x80 + point / 64 % 64), UInt8.ofNat (0x80 + point % 64)]

def isHighSurrogate (code : Nat) : Bool := decide (0xd800 ≤ code) && decide (code ≤ 0xdbff)

def isLowSurrogate (code : Nat) : Bool := decide (0xdc00 ≤ code) && decide (code ≤ 0xdfff)

def pairedPoint (high low : Nat) : Nat := 0x10000 + (high - 0xd800) * 1024 + (low - 0xdc00)

def content : List Letter → Bytes
  | [] => []
  | .byte byte :: others => byte :: content others
  | .escaped byte :: others => byte :: content others
  | .unicode high :: .unicode low :: others =>
    if isHighSurrogate high && isLowSurrogate low then
      encode (pairedPoint high low) ++ content others
    else encode high ++ content (.unicode low :: others)
  | .unicode code :: others => encode code ++ content others

def digitsValue (digits : Bytes) : Nat :=
  digits.foldl (fun value digit => value * 10 + (digit.toNat - 48)) 0

def numberValue (text : Bytes) : Value :=
  if text.all (fun byte => isDigit byte || byte == 45) then
    .integer (if text.head? = some 45 then -(digitsValue text.tail : Int) else digitsValue text)
  else .decimal text

def readNumber (input : Bytes) : Option (Value × Bytes) :=
  (skipNumber input).map fun rest =>
    (numberValue ((space input).take ((space input).length - rest.length)), rest)

def readKey (input : Bytes) : Option (Bytes × Bytes) := do
  let (key, rest) ← stringLetters input
  match space rest with
  | [] => none
  | byte :: rest => if byte = colon then some (content key, rest) else none

def itemKey : Collection → Bytes → Option (Bytes × Bytes)
  | .object, input => readKey input
  | .array, input => some ([], input)

mutual

def readValue : Nat → Bytes → Option (Value × Bytes)
  | 0, _ => none
  | fuel + 1, input =>
    match space input with
    | [] => none
    | byte :: rest =>
      if byte = Collection.object.opening then
        (readItems fuel .object 0 rest).map (map (.collection .object) id)
      else if byte = Collection.array.opening then
        (readItems fuel .array 0 rest).map (map (.collection .array) id)
      else if byte = quote then
        (letters rest).map (map (fun text => .string (content text)) id)
      else if byte = 116 then (literal [116, 114, 117, 101] input).map (mk (.boolean true))
      else if byte = 102 then
        (literal [102, 97, 108, 115, 101] input).map (mk (.boolean false))
      else if byte = 110 then (literal [110, 117, 108, 108] input).map (mk .null)
      else readNumber input

/-- The items of a collection behind `count` others. -/
def readItems : Nat → Collection → Nat → Bytes → Option (Items × Bytes)
  | 0, _, _, _ => none
  | fuel + 1, collection, count, input =>
    match iterAdvance collection count input with
    | .error => none
    | .finished trailing rest => if trailing then none else some (.nil, rest)
    | .ready rest => do
      let (key, rest) ← itemKey collection rest
      let (value, rest) ← readValue fuel rest
      let (others, rest) ← readItems fuel collection (count + 1) rest
      return (.cons key value others, rest)

end

/-- A byte that no JSON text has: the scanner passes over vertical tabs and form feeds as it does
over blanks, but they are not white space of JSON, and a string may not hold them either. -/
def isForeign (byte : UInt8) : Bool := byte == 11 || byte == 12

def value (text : Bytes) : Option Value :=
  if text.any isForeign then none
  else match readValue (2 * text.length + 2) text with
    | some (value, rest) => if complete rest then some value else none
    | none => none

theorem readKey_of_memberKey (found : (memberKey capacity).run input = some (key, rest)) :
    ∃ key', readKey input = some (key', rest) := by
  obtain ⟨⟨read, behind⟩, named, ends⟩ := bind_eq_some_iff.mp found
  obtain ⟨⟨text, behind'⟩, quoted, short⟩ := bind_eq_some_iff.mp named
  obtain ⟨-, -, same⟩ := bind_eq_some_iff.mp short
  cases same
  refine ⟨content text, bind_eq_some_iff.mpr ⟨_, quoted, ?_⟩⟩
  dsimp only at ends
  cases follows : space behind with
  | nil =>
    rw [follows] at ends
    cases ends
  | cons byte others => ?_
  simp only [follows] at ends ⊢
  split at ends
  · rename_i separated
    cases ends
    rw [if_pos separated]
  · cases ends

theorem read_of_skip (fuel : Nat) : (∀ depth input rest, skipValue fuel depth input = some rest →
      ∃ value, readValue fuel input = some (value, rest)) ∧
    (∀ depth collection count input rest, skipItems fuel depth collection count input = some rest →
      ∃ items, readItems fuel collection count input = some (items, rest)) := by
  induction fuel with
  | zero =>
    exact ⟨fun _ _ _ skipped => (by cases skipped), fun _ _ _ _ _ skipped => (by cases skipped)⟩
  | succ fuel induction => ?_
  obtain ⟨ofValue, ofItems⟩ := induction
  refine ⟨fun depth input rest skipped => ?_, fun depth collection count input rest skipped => ?_⟩
  · rw [skipValue] at skipped
    rw [readValue]
    cases front : space input with
    | nil =>
      rw [front] at skipped
      cases skipped
    | cons byte behind => ?_
    simp only [front] at skipped ⊢
    split_ifs at skipped ⊢ with array
    · obtain ⟨items, read⟩ := ofItems _ _ _ _ _ skipped
      exact ⟨_, by rw [read]; rfl⟩
    · obtain ⟨items, read⟩ := ofItems _ _ _ _ _ skipped
      exact ⟨_, by rw [read]; rfl⟩
    · obtain ⟨⟨text, behind'⟩, read, rfl⟩ := map_eq_some_iff.mp skipped
      exact ⟨_, by rw [read]; rfl⟩
    · exact ⟨_, by rw [skipped]; rfl⟩
    · exact ⟨_, by rw [skipped]; rfl⟩
    · exact ⟨_, by rw [skipped]; rfl⟩
    · exact ⟨_, by rw [readNumber, skipped]; rfl⟩
  rw [skipItems] at skipped
  rw [readItems]
  cases advanced : iterAdvance collection count input with
  | error => simp only [advanced, reduceCtorEq] at skipped
  | finished trailing behind =>
    simp only [advanced] at skipped ⊢
    split_ifs at skipped ⊢
    cases skipped
    exact ⟨_, rfl⟩
  | ready behind =>
    have keyed : ∃ key behind', itemKey collection behind = some (key, behind') ∧
        ∃ passed, skipValue fuel depth behind' = some passed ∧
          skipItems fuel depth collection (count + 1) passed = some rest := by
      cases collection with
      | object =>
        simp only [advanced] at skipped
        obtain ⟨named, key, skipped⟩ := bind_eq_some_iff.mp skipped
        obtain ⟨⟨text, rest'⟩, found, rfl⟩ := map_eq_some_iff.mp key
        obtain ⟨key', reads⟩ := readKey_of_memberKey found
        exact ⟨key', _, reads, bind_eq_some_iff.mp skipped⟩
      | array =>
        simp only [advanced] at skipped
        exact ⟨[], behind, rfl, bind_eq_some_iff.mp skipped⟩
    obtain ⟨key, behind', named, passed, one, others⟩ := keyed
    obtain ⟨value, read⟩ := ofValue _ _ _ one
    obtain ⟨items, reads⟩ := ofItems _ _ _ _ _ others
    refine ⟨.cons key value items, ?_⟩
    simp only [named, read, reads, bind_eq_bind, bind_some, pure]

/-! ## A text that goes on

A value is read in the same way when something follows it. Only a number has to be kept apart from
what comes next. -/

def Ends (after : Bytes) : Prop :=
  ∀ byte ∈ after.head?, isDigit byte = false ∧ byte ≠ 46 ∧ byte ≠ 101 ∧ byte ≠ 69

theorem space_append (present : space input ≠ []) (after : Bytes) :
    space (input ++ after) = space input ++ after := by
  rw [space, dropWhile_append, if_neg (by simpa [space] using present)]
  rfl

theorem letters_append (read : letters input = some (text, rest))
    (after : Bytes) : letters (input ++ after) = some (text, rest ++ after) := by
  fun_induction letters input generalizing text rest with
  | case1 => cases read
  | case2 a b c d behind induction =>
    simp only [bind_eq_some, cons_append] at read ⊢
    obtain ⟨first, isFirst, second, isSecond, third, isThird, fourth, isFourth, ⟨others, rest'⟩,
      inside, same⟩ := read
    cases same
    rw [letters]
    simp only [isFirst, isSecond, isThird, isFourth, induction inside, bind_eq_bind,
      bind_some, pure]
  | case3 escape behind notUnicode induction =>
    simp only [bind_eq_some, cons_append] at read ⊢
    obtain ⟨byte, escaped, ⟨others, rest'⟩, inside, same⟩ := read
    cases same
    rw [letters]
    · simp only [escaped, induction inside, bind_eq_bind, bind_some, pure]
    intro a b c d more isUnicode _
    rw [isUnicode] at escaped
    cases escaped
  | case4 behind notUnicode notEscape =>
    cases read
    rfl
  | case5 byte behind notUnicode notEscape notQuote small => cases read
  | case6 byte behind notUnicode notEscape notQuote printable induction =>
    simp only [bind_eq_some] at read
    obtain ⟨⟨others, rest'⟩, inside, same⟩ := read
    cases same
    have plain : byte ≠ 92 := by
      cases behind with
      | nil => cases inside
      | cons escape more => exact fun isEscape => notEscape escape more isEscape rfl
    rw [cons_append, letters, if_neg notQuote, if_neg printable]
    · simp only [induction inside, bind_eq_bind, bind_some, pure]
    · exact fun _ _ _ _ _ isEscape _ => plain isEscape
    · exact fun _ _ isEscape _ => plain isEscape

theorem literal_append (read : literal word input = some rest) (present : word ≠ [])
    (after : Bytes) : literal word (input ++ after) = some (rest ++ after) := by
  rw [literal] at read ⊢
  split at read
  · rename_i begins
    have begins := isPrefixOf_iff_prefix.mp begins
    cases read
    have visible : space input ≠ [] := by
      intro empty
      rw [empty, prefix_nil] at begins
      exact present begins
    rw [space_append visible, if_pos, drop_append_of_le_length begins.length_le]
    exact isPrefixOf_iff_prefix.mpr (begins.trans (prefix_append _ _))
  · cases read

theorem literal_map_append {value read : Value}
    (reads : (literal word input).map (mk value) = some (read, rest)) (present : word ≠ [])
    (after : Bytes) :
    (literal word (input ++ after)).map (mk value) = some (read, rest ++ after) := by
  obtain ⟨rest', reads, same⟩ := map_eq_some_iff.mp reads
  cases same
  rw [literal_append reads present]
  rfl

variable {after : Bytes}

theorem digits_append (read : digits input = some rest)
    (ends : ∀ byte ∈ after.head?, isDigit byte = false) :
    digits (input ++ after) = some (rest ++ after) := by
  cases input with
  | nil => cases read
  | cons byte input => ?_
  rw [digits] at read
  rw [cons_append, digits]
  split at read
  · rename_i digit
    cases read
    rw [if_pos digit, dropWhile_append]
    split
    · rename_i empty
      rw [isEmpty_iff.mp empty, nil_append]
      cases after with
      | nil => rfl
      | cons next after => rw [dropWhile_cons_of_neg]; simpa using ends next rfl
    · rfl
  · cases read

theorem head_append (other : after.head? ≠ some byte) :
    (input ++ after).head? = some byte ↔ input.head? = some byte := by
  cases input with
  | nil => exact iff_of_false other (some_ne_none byte).symm
  | cons first input => exact Iff.rfl

theorem tail_append (first : input.head? = some byte) :
    (input ++ after).tail = input.tail ++ after := by
  cases input with
  | nil => cases first
  | cons first input => rfl

theorem ends_nil : Ends [] := fun _ first => by cases first

theorem Ends.head_ne {after : Bytes} (ends : Ends after) {byte : UInt8}
    (number : isDigit byte = true ∨ byte = 46 ∨ byte = 101 ∨ byte = 69) :
    after.head? ≠ some byte := by
  intro first
  obtain ⟨digit, point, small, capital⟩ := ends byte first
  rcases number with isDigit | isPoint | isSmall | isCapital
  · rw [digit] at isDigit
    cases isDigit
  · exact point isPoint
  · exact small isSmall
  · exact capital isCapital

theorem ite_bind [Decidable condition] (first second : Option α)
    (next : α → Option β) : (if condition then first.bind next else second.bind next) =
      (if condition then first else second).bind next := by
  split <;> rfl

theorem skipNumber_eq_some : skipNumber input = some rest ↔
    ∃ whole, (let number := if (space input).head? = some 45 then (space input).tail
        else space input
      if number.head? = some 48 then some number.tail else digits number) = some whole ∧
      ∃ fraction, (if whole.head? = some 46 then digits whole.tail else some whole) =
          some fraction ∧
        (if fraction.head? = some 101 ∨ fraction.head? = some 69 then
          digits (if fraction.tail.head? = some 43 ∨ fraction.tail.head? = some 45
            then fraction.tail.tail else fraction.tail)
        else some fraction) = some rest := by
  simp only [← bind_eq_some_iff]
  rw [skipNumber]
  simp only [bind_eq_bind, ite_bind]

theorem skipNumber_append (read : skipNumber input = some rest) (ends : Ends after) :
    skipNumber (input ++ after) = some (rest ++ after) := by
  have digit : ∀ byte ∈ after.head?, isDigit byte = false := fun byte first => (ends byte first).1
  obtain ⟨whole, integral, fraction, fractional, exponent⟩ := skipNumber_eq_some.mp read
  rw [skipNumber_eq_some]
  dsimp only at integral
  have visible : space input ≠ [] := by
    intro empty
    rw [empty] at integral
    cases integral
  obtain ⟨first, others, front⟩ := exists_cons_of_ne_nil visible
  rw [space_append visible]
  refine ⟨whole ++ after, ?_, fraction ++ after, ?_, ?_⟩
  · have signed : (if (space input ++ after).head? = some 45 then (space input ++ after).tail
        else space input ++ after) =
        (if (space input).head? = some 45 then (space input).tail else space input) ++ after := by
      grind
    rw [signed]
    generalize (if (space input).head? = some 45 then (space input).tail else space input) = number
      at integral
    simp only [head_append (@Ends.head_ne _ ends 48 (.inl rfl))]
    split at integral
    · rename_i zero
      cases integral
      rw [if_pos zero, tail_append zero]
    · rename_i other
      rw [if_neg other, digits_append integral digit]
  · simp only [head_append (@Ends.head_ne _ ends 46 (.inr (.inl rfl)))]
    split at fractional
    · rename_i point
      rw [if_pos point, tail_append point, digits_append fractional digit]
    · rename_i other
      cases fractional
      rw [if_neg other]
  simp only [head_append (@Ends.head_ne _ ends 101 (.inr (.inr (.inl rfl)))),
    head_append (@Ends.head_ne _ ends 69 (.inr (.inr (.inr rfl))))]
  split at exponent
  · rename_i marked
    have behind : (fraction ++ after).tail = fraction.tail ++ after := by
      rcases marked with small | capital
      · exact tail_append small
      · exact tail_append capital
    rw [if_pos marked, behind]
    obtain ⟨next, more, split⟩ : ∃ next more, fraction.tail = next :: more := by
      apply exists_cons_of_ne_nil
      intro empty
      rw [empty] at exponent
      cases exponent
    have kept : (fraction.tail ++ after).head? = fraction.tail.head? := by
      rw [split]
      rfl
    rw [kept]
    split at exponent
    · rename_i sign
      have behind' : (fraction.tail ++ after).tail = fraction.tail.tail ++ after := by
        rw [split]
        rfl
      rw [if_pos sign, behind']
      exact digits_append exponent digit
    · rename_i plain
      rw [if_neg plain]
      exact digits_append exponent digit
  · rename_i unmarked
    cases exponent
    rw [if_neg unmarked]

theorem space_ne_nil_of_skipNumber (read : skipNumber input = some rest) : space input ≠ [] := by
  intro empty
  rw [skipNumber, empty] at read
  cases read

theorem readNumber_append (read : readNumber input = some (number, rest))
    (ends : Ends after) : readNumber (input ++ after) = some (number, rest ++ after) := by
  obtain ⟨behind, skipped, same⟩ := map_eq_some_iff.mp read
  cases same
  rw [readNumber, skipNumber_append skipped ends, map_some,
    space_append (space_ne_nil_of_skipNumber skipped), length_append, length_append,
    Nat.add_sub_add_right, take_append_of_le_length (Nat.sub_le _ _)]

def Item.append : Item → Bytes → Item
  | .error, _ => .error
  | .finished trailing rest, after => .finished trailing (rest ++ after)
  | .ready rest, after => .ready (rest ++ after)

variable {count : Nat}

theorem iterAdvance_append (good : iterAdvance collection count input ≠ .error) (after : Bytes) :
    iterAdvance collection count (input ++ after) =
      (iterAdvance collection count input).append after := by
  rw [iterAdvance] at good
  rw [iterAdvance, iterAdvance]
  cases front : space input with
  | nil => simp [front] at good
  | cons byte rest => ?_
  rw [space_append (by rw [front]; exact cons_ne_nil _ _)]
  simp only [front, cons_append] at good ⊢
  split_ifs at good ⊢ with first
  · rfl
  · rfl
  · cases next : space rest with
    | nil => simp [next] at good
    | cons byte' rest' => ?_
    rw [space_append (by rw [next]; exact cons_ne_nil _ _), next]
    simp only [cons_append]
    split_ifs <;> rfl
  · simp at good

theorem readKey_append (read : readKey input = some (key, rest)) (after : Bytes) :
    readKey (input ++ after) = some (key, rest ++ after) := by
  obtain ⟨⟨text, behind⟩, quoted, ends⟩ := bind_eq_some_iff.mp read
  rw [stringLetters] at quoted
  split at quoted
  · cases quoted
  rename_i byte inside front
  split at quoted
  · rename_i isQuote
    have quoted' : stringLetters (input ++ after) = some (text, behind ++ after) := by
      rw [stringLetters, space_append (by rw [front]; exact cons_ne_nil _ _), front]
      simp only [cons_append, if_pos isQuote]
      exact letters_append quoted after
    rw [readKey, quoted', bind_eq_bind, bind_some]
    dsimp only at ends ⊢
    split at ends
    · cases ends
    rename_i byte' rest' next
    rw [space_append (by rw [next]; exact cons_ne_nil _ _), next]
    simp only [cons_append]
    split_ifs at ends ⊢
    cases ends
    rfl
  · cases quoted

theorem itemKey_append (read : itemKey collection input = some (key, rest)) (after : Bytes) :
    itemKey collection (input ++ after) = some (key, rest ++ after) := by
  cases collection with
  | object => exact readKey_append read after
  | array =>
    cases read
    rfl

theorem read_append (ends : Ends after) (fuel : Nat) :
    (∀ more input value rest, fuel ≤ more → readValue fuel input = some (value, rest) →
      readValue more (input ++ after) = some (value, rest ++ after)) ∧
    (∀ more collection count input items rest, fuel ≤ more →
      readItems fuel collection count input = some (items, rest) →
      readItems more collection count (input ++ after) = some (items, rest ++ after)) := by
  induction fuel with
  | zero => exact ⟨fun _ _ _ _ _ read => (by cases read), fun _ _ _ _ _ _ _ read => (by cases read)⟩
  | succ fuel induction => ?_
  obtain ⟨ofValue, ofItems⟩ := induction
  refine ⟨fun more input value rest enough read => ?_,
    fun more collection count input items rest enough read => ?_⟩
  · obtain ⟨more, rfl⟩ : ∃ less, more = less + 1 := ⟨more - 1, by omega⟩
    have enough := Nat.le_of_succ_le_succ enough
    rw [readValue] at read ⊢
    split at read
    · cases read
    rename_i byte behind front
    rw [space_append (by rw [front]; exact cons_ne_nil _ _), front]
    simp only [cons_append]
    split_ifs at read ⊢ with array
    · obtain ⟨⟨inside, rest'⟩, reads, same⟩ := map_eq_some_iff.mp read
      cases same
      rw [ofItems more _ _ _ _ _ enough reads]
      rfl
    · obtain ⟨⟨inside, rest'⟩, reads, same⟩ := map_eq_some_iff.mp read
      cases same
      rw [ofItems more _ _ _ _ _ enough reads]
      rfl
    · obtain ⟨⟨text, rest'⟩, reads, same⟩ := map_eq_some_iff.mp read
      cases same
      rw [letters_append reads]
      rfl
    · exact literal_map_append read (cons_ne_nil _ _) after
    · exact literal_map_append read (cons_ne_nil _ _) after
    · exact literal_map_append read (cons_ne_nil _ _) after
    · exact readNumber_append read ends
  · obtain ⟨more, rfl⟩ : ∃ less, more = less + 1 := ⟨more - 1, by omega⟩
    have enough := Nat.le_of_succ_le_succ enough
    rw [readItems] at read ⊢
    have good : iterAdvance collection count input ≠ .error := by
      intro failed
      rw [failed] at read
      cases read
    rw [iterAdvance_append good]
    cases advanced : iterAdvance collection count input with
    | error => exact absurd advanced good
    | finished trailing behind =>
      simp only [advanced, Item.append] at read ⊢
      split_ifs at read ⊢
      cases read
      rfl
    | ready behind =>
      simp only [advanced, Item.append, bind_eq_some] at read ⊢
      obtain ⟨⟨key, rest₁⟩, keyed, ⟨value, rest₂⟩, one, ⟨others, rest₃⟩, reads, same⟩ := read
      cases same
      exact ⟨_, itemKey_append keyed after, _, ofValue more _ _ _ enough one, _,
        ofItems more _ _ _ _ _ enough reads, rfl⟩

theorem readValue_mono (read : readValue fuel input = some (found, rest)) (enough : fuel ≤ more) :
    readValue more input = some (found, rest) := by
  have same := (read_append ends_nil fuel).1 more _ _ _ enough read
  rwa [append_nil, append_nil] at same

theorem space_append_of_complete (spaces : complete blank = true) (input : Bytes) :
    space (blank ++ input) = space input := by
  rw [complete] at spaces
  rw [space, dropWhile_append, if_pos (by simpa [space] using spaces)]
  rfl

theorem readValue_of_space (same : space input = space other) :
    readValue fuel input = readValue fuel other := by
  cases fuel with
  | zero => rfl
  | succ fuel => ?_
  have number : readNumber input = readNumber other := by simp only [readNumber, skipNumber, same]
  simp only [readValue, same, literal, number]

theorem readItems_of_space (same : space input = space other) :
    readItems fuel collection count input = readItems fuel collection count other := by
  cases fuel with
  | zero => rfl
  | succ fuel => simp only [readItems, iterAdvance, same]

theorem readItems_mono (read : readItems fuel collection count input = some (found, rest))
    (enough : fuel ≤ more) : readItems more collection count input = some (found, rest) := by
  have same := (read_append ends_nil fuel).2 more _ _ _ _ _ enough read
  rwa [append_nil, append_nil] at same

end Yvex.Json
