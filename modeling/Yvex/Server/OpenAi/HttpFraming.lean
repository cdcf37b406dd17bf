import Yvex.Server.OpenAi.Http

namespace Yvex.Server.OpenAi

open List Option

/-! # Where a request ends

What is read depends on the stream alone, up to one thing: how many of the bytes behind the blank
line come together with it. -/

def splitBlock (stream : Bytes) : Option (Bytes × Bytes) :=
  (blankLineAt (stream.take headerMax)).map fun position =>
    (stream.take (position + blankLine.length), stream.drop (position + blankLine.length))

theorem blankLineAt_fits (found : blankLineAt buffer = some position) :
    position + blankLine.length ≤ buffer.length :=
  (occurrence_fits found).trans ( takeWhile_prefix _).length_le

theorem blankLineAt_append (found : blankLineAt buffer = some position) (more : Bytes) :
    blankLineAt (buffer ++ more) = some position := by
  have longer : ∃ rest, (buffer ++ more).takeWhile (· != 0) =
      buffer.takeWhile (· != 0) ++ rest := by
    rw [takeWhile_append]
    split
    · rename_i whole
      have same : buffer.takeWhile (· != 0) = buffer := ( takeWhile_prefix _).eq_of_length whole
      rw [same]
      exact ⟨_, rfl⟩
    · exact ⟨[], (append_nil _).symm⟩
  obtain ⟨rest, equal⟩ := longer
  rw [blankLineAt, equal]
  exact occurrence_append found rest

theorem splitBlock_append (short : buffer.length ≤ headerMax)
    (found : blankLineAt buffer = some position) :
    splitBlock (buffer ++ rest) = some (buffer.take (position + blankLine.length),
      buffer.drop (position + blankLine.length) ++ rest) := by
  have fits := blankLineAt_fits found
  have early : blankLineAt ((buffer ++ rest).take headerMax) = some position := by
    rw [take_append, take_of_length_le short]
    exact blankLineAt_append found _
  rw [splitBlock, early, map_some, take_append_of_le_length fits, drop_append_of_le_length fits]

/-- The outcome for a stream of which `used` bytes come until the blank line is seen. -/
def outcome (stream : Bytes) (used : Nat) : Except Rejection HttpRequest :=
  match splitBlock stream with
  | none =>
    if stream.length < headerMax then
      .error ⟨.io, "HTTP client closed before the request completed"⟩
    else .error ⟨.bounds, "HTTP header extent exceeds the gateway limit"⟩
  | some (block, rest) => do
    let head ← parseHeaders block
    require (decide (used - block.length ≤ head.declared)) .format
      "bytes beyond Content-Length are refused"
    require (decide (head.declared ≤ rest.length)) .io
      "HTTP client closed before the request completed"
    return { method := head.method, path := head.path, body := rest.take head.declared }

theorem blankLineAt_nil : blankLineAt [] = none := by decide

theorem httpRead_found
    (gathered : gather headerMax blankLineAt headerMax [] pieces = .found position buffer others)
    (short : buffer.length ≤ headerMax) (found : blankLineAt buffer = some position)
    (cut : IsCut others rest) : httpRead pieces = outcome (buffer ++ rest) buffer.length := by
  have fits := blankLineAt_fits found
  rw [httpRead, gathered, outcome, splitBlock_append short found]
  simp only
  cases parseHeaders (buffer.take (position + blankLine.length)) with
  | error rejection => rfl
  | ok head => ?_
  have taken : (buffer.take (position + blankLine.length)).length =
      position + blankLine.length := by
    rw [length_take]
    omega
  simp only [bind, Except.bind, length_drop, taken]
  cases early : decide (buffer.length - (position + blankLine.length) ≤ head.declared) with
  | false => rfl
  | true => ?_
  rw [fill_eq cut _ (by omega)]
  · by_cases enough : head.declared ≤ (buffer.drop (position + blankLine.length) ++ rest).length
    · rw [if_pos enough, decide_eq_true enough]
      rfl
    · rw [if_neg enough, decide_eq_false enough]
      rfl
  · rw [length_drop]
    exact of_decide_eq_true early

/-- Reading is a function of the stream and of the number of bytes that come with the block. -/
theorem httpRead_eq_outcome (cut : IsCut pieces stream) :
    ∃ used, httpRead pieces = outcome stream used ∧
      ∀ block rest, splitBlock stream = some (block, rest) →
        block.length ≤ used ∧ used ≤ stream.length := by
  have described : (gather headerMax blankLineAt headerMax [] pieces).Describes headerMax
      blankLineAt ([] ++ stream) :=
    gather_describes cut (Nat.zero_le headerMax) (Nat.le_refl headerMax) blankLineAt_nil
  rw [nil_append] at described
  cases gathered : gather headerMax blankLineAt headerMax [] pieces with
  | closed =>
    rw [gathered] at described
    have none : splitBlock stream = none := by
      rw [splitBlock, take_of_length_le described.1.le, described.2]
      rfl
    refine ⟨0, ?_, ?_⟩
    · rw [httpRead, gathered, outcome, none, if_pos described.1]
    · rw [none]
      nofun
  | full =>
    rw [gathered] at described
    have none : splitBlock stream = none := by
      rw [splitBlock, described.2]
      rfl
    refine ⟨0, ?_, ?_⟩
    · rw [httpRead, gathered, outcome, none, if_neg (not_lt.mpr described.1)]
    · rw [none]
      nofun
  | found position buffer others =>
    rw [gathered] at described
    obtain ⟨short, found, rest, rfl, cut'⟩ := described
    refine ⟨buffer.length, httpRead_found gathered short found cut', ?_⟩
    intro block others' equal
    cases (splitBlock_append short found).symm.trans equal
    rw [length_take, length_append]
    omega

def colonAt (text : Bytes) : Nat := (text.idxOf? 58).getD text.length

def rawName (text : Bytes) : Bytes := text.take (colonAt text)

section

variable (expected text : Bytes)

/-- Whether a field line has a name as `header_name` compares it. -/
def writesField : Bool := headerName (rawName text) expected

def meansField : Bool := headerName ((rawName text).rdropWhile isBlank) expected

def spacedField : Bool := meansField expected text && !writesField expected text

end

def declaredBy (text : Bytes) : Option Nat :=
  if writesField contentLengthName text then
    contentLength (trimmed (text.drop (colonAt text + 1)))
  else none

/-- What the `Content-Length` field of a block says, or zero without one. -/
def contentLengthOf (block : Bytes) : Nat := ((fieldLines block).findSome? declaredBy).getD 0

theorem meansField_of_writesField (letter : UInt8) (last : expected.getLast? = some letter)
    (solid : isBlank letter = false)
    (writes : writesField expected text = true) : meansField expected text = true := by
  have equal : (rawName text).map lowered = expected := by simpa [writesField, headerName] using
    writes
  have kept : (rawName text).rdropWhile isBlank = rawName text := by
    apply rdropWhile_eq_self_iff.mpr
    intro present
    have mapped : lowered ((rawName text).getLast present) = letter := by
      rw [← equal, getLast?_map, getLast?_eq_getLast_of_ne_nil present,
        map_some, some.injEq] at last
      exact last
    intro blank
    have same : lowered ((rawName text).getLast present) = (rawName text).getLast present := by
      simp only [isBlank, Bool.or_eq_true, beq_iff_eq] at blank
      rcases blank with blank | blank
      · rw [blank]
        rfl
      · rw [blank]
        rfl
    rw [← mapped, same, blank] at solid
    cases solid
  rw [meansField, kept]
  exact writes

theorem countP_meansField (letter : UInt8) (last : expected.getLast? = some letter)
    (solid : isBlank letter = false) (texts : List Bytes) : texts.countP (meansField expected) =
      texts.countP (writesField expected) + texts.countP (spacedField expected) := by
  induction texts with
  | nil => rfl
  | cons text texts induction => ?_
  rw [countP_cons, countP_cons, countP_cons]
  by_cases writes : writesField expected text = true
  · have means := meansField_of_writesField letter last solid writes
    rw [spacedField, writes, means, if_pos rfl, if_neg (by decide)]
    omega
  · rw [Bool.not_eq_true] at writes
    rw [spacedField, writes, Bool.not_false, Bool.and_true, if_neg Bool.false_ne_true]
    omega

theorem headerFields_ok (accepted : headerFields fields declared texts = .ok result) :
    declared.isSome.toNat + texts.countP (writesField contentLengthName) ≤ 1 ∧
      texts.countP (writesField transferEncodingName) = 0 ∧
      result = declared.or (texts.findSome? declaredBy) := by
  induction texts generalizing fields declared with
  | nil =>
    cases accepted
    refine ⟨?_, rfl, ?_⟩
    · cases result <;> simp
    · cases result <;> rfl
  | cons text texts induction => ?_
  rw [headerFields] at accepted
  split at accepted
  · cases accepted
  split at accepted
  · cases accepted
  rename_i colon found
  have place : colonAt text = colon := by
    rw [colonAt, found]
    rfl
  have named : ∀ expected, writesField expected text = headerName (text.take colon) expected := by
    intro expected
    rw [writesField, rawName, place]
  rw [← named, ← named] at accepted
  rw [countP_cons, countP_cons, findSome?_cons, declaredBy, place]
  split at accepted
  · cases accepted
  split at accepted
  · rename_i length
    have other : writesField transferEncodingName text = false := by
      rw [writesField, headerName, beq_iff_eq] at length
      rw [writesField, headerName, length]
      decide
    split at accepted
    · grind
    · cases accepted
  · grind

theorem parseHeaders_ok {head : Head} (accepted : parseHeaders block = .ok head) :
    (fieldLines block).countP (writesField contentLengthName) ≤ 1 ∧
      (fieldLines block).countP (writesField transferEncodingName) = 0 ∧
      head.declared = contentLengthOf block := by
  rw [parseHeaders, Except.bind_eq_ok] at accepted
  obtain ⟨first, -, accepted⟩ := accepted
  rw [Except.bind_eq_ok] at accepted
  obtain ⟨declared, looped, accepted⟩ := accepted
  obtain ⟨single, encodings, same⟩ := headerFields_ok looped
  split at accepted
  · cases accepted
  split at accepted
  · cases accepted
  cases accepted
  refine ⟨?_, encodings, ?_⟩
  · simpa using single
  · rw [same]
    rfl

/-- A block with one `Content-Length` at most and no `Transfer-Encoding`. -/
def Unambiguous (block : Bytes) : Prop :=
  (fieldLines block).countP (meansField contentLengthName) ≤ 1 ∧
    (fieldLines block).countP (meansField transferEncodingName) = 0

structure Framed (stream : Bytes) : Prop where
  independent : ∀ pieces others, IsCut pieces stream → IsCut others stream →
    httpRead pieces = httpRead others
  exact : ∀ pieces request, IsCut pieces stream → httpRead pieces = .ok request →
    ∃ block rest head, splitBlock stream = some (block, rest) ∧ parseHeaders block = .ok head ∧
      request.method = head.method ∧ request.path = head.path ∧
      request.body = rest.take (contentLengthOf block) ∧
      request.body.length = contentLengthOf block
  refused : ∀ block rest, splitBlock stream = some (block, rest) →
    contentLengthOf block < rest.length → ∀ pieces, IsCut pieces stream →
      (httpRead pieces).isOk = false
  unambiguous : ∀ block rest, splitBlock stream = some (block, rest) →
    (parseHeaders block).isOk = true → Unambiguous block

/-- No `Transfer-Encoding` has blanks before its colon, and a `Content-Length` that has some is
the only one. -/
def PlainNames (block : Bytes) : Prop :=
  (fieldLines block).countP (spacedField transferEncodingName) = 0 ∧
    ((fieldLines block).countP (spacedField contentLengthName) = 0 ∨
      (fieldLines block).countP (spacedField contentLengthName) = 1 ∧
        (fieldLines block).countP (writesField contentLengthName) = 0)

/-- A stream whose accepted header block has plain names and is followed by no more bytes than it
declares. -/
def Tidy (stream : Bytes) : Prop :=
  ∀ block rest, splitBlock stream = some (block, rest) → (parseHeaders block).isOk = true →
    rest.length ≤ contentLengthOf block ∧ PlainNames block

theorem unambiguous_iff (accepted : (parseHeaders block).isOk = true) :
    Unambiguous block ↔ PlainNames block := by
  obtain ⟨head, parsed⟩ := Except.exists_of_isOk accepted
  obtain ⟨single, encodings, -⟩ := parseHeaders_ok parsed
  have lengths : ∀ texts, List.countP (meansField contentLengthName) texts = _ :=
    countP_meansField 104 rfl rfl
  have coded : ∀ texts, List.countP (meansField transferEncodingName) texts = _ :=
    countP_meansField 103 rfl rfl
  rw [Unambiguous, PlainNames, lengths, coded]
  omega

theorem splitBlock_eq_some (split : splitBlock stream = some (block, rest)) :
    stream = block ++ rest ∧ block.length ≤ headerMax ∧
      ∃ position, blankLineAt block = some position ∧ block.length =
        position + blankLine.length := by
  obtain ⟨position, found, equal⟩ := map_eq_some_iff.mp split
  cases equal
  have fits := blankLineAt_fits found
  rw [length_take] at fits
  have length : (stream.take (position + blankLine.length)).length =
      position + blankLine.length := by
    rw [length_take]
    omega
  refine ⟨(take_append_drop _ _).symm, by omega, position, ?_, length⟩
  have room := occurrence_fits found
  -- The block lies before the first zero byte.
  generalize plain : (stream.take headerMax).takeWhile (· != 0) = text at room
  have front : text <+: stream := by
    rw [← plain]
    exact ( takeWhile_prefix _).trans ( take_prefix _ _)
  have shorter : stream.take (position + blankLine.length) =
      text.take (position + blankLine.length) := by
    rw [prefix_iff_eq_take.mp front, take_take, min_eq_left room]
  have solid : (text.take (position + blankLine.length)).takeWhile (· != 0) =
      text.take (position + blankLine.length) := by
    apply takeWhile_eq_self_iff.mpr
    intro byte member
    have inside := mem_of_mem_take member
    rw [← plain] at inside
    have nonzero := mem_takeWhile_imp inside
    exact nonzero
  rw [blankLineAt, plain, ← take_append_drop (position + blankLine.length) text] at found
  rw [shorter, blankLineAt, solid]
  apply occurrence_of_append found
  rw [length_take]
  omega

theorem httpRead_apart (split : splitBlock stream = some (block, rest)) (present : rest ≠ []) :
    httpRead [block, rest] = outcome stream block.length := by
  obtain ⟨rfl, short, position, found, length⟩ := splitBlock_eq_some split
  have gathered : gather headerMax blankLineAt headerMax [] [block, rest] =
      .found position block [rest] := by
    have filled : block.isEmpty = false := by
      cases block with
      | nil => cases length
      | cons byte block => rfl
    change gather headerMax blankLineAt (32767 + 1) [] [block, rest] = _
    rw [gather, if_neg (by decide), receive, length_nil, Nat.sub_zero, if_pos short]
    simp only [filled, nil_append, found, Bool.false_eq_true, if_false]
  exact httpRead_found gathered short found (isCut_whole present)

theorem outcome_ok (accepted : outcome stream used = .ok request) :
    ∃ block rest head, splitBlock stream = some (block, rest) ∧ parseHeaders block = .ok head ∧
      used - block.length ≤ head.declared ∧ head.declared ≤ rest.length ∧
      request = ⟨head.method, head.path, rest.take head.declared⟩ := by
  rw [outcome] at accepted
  cases split : splitBlock stream with
  | none =>
    rw [split] at accepted
    simp only at accepted
    split at accepted <;> cases accepted
  | some found => ?_
  obtain ⟨block, rest⟩ := found
  simp only [split, Except.bind_eq_ok, require_eq_ok, decide_eq_true_eq, pure_eq_ok] at accepted
  obtain ⟨head, parsed, _, early, _, enough, equal⟩ := accepted
  exact ⟨block, rest, head, rfl, parsed, early, enough, equal.symm⟩

theorem outcome_tidy (tidy : Tidy stream) (within : used ≤ stream.length) :
    outcome stream used = outcome stream 0 := by
  rw [outcome, outcome]
  cases split : splitBlock stream with
  | none => rfl
  | some found => ?_
  obtain ⟨block, rest⟩ := found
  simp only
  cases parsed : parseHeaders block with
  | error rejection => rfl
  | ok head => ?_
  have accepted : (parseHeaders block).isOk = true := by
    rw [parsed]
    rfl
  have behind := (tidy block rest split accepted).1
  rw [← (parseHeaders_ok parsed).2.2] at behind
  obtain ⟨rfl, -⟩ := splitBlock_eq_some split
  rw [length_append] at within
  have early : used - block.length ≤ head.declared := by omega
  have none : 0 - block.length ≤ head.declared := by omega
  simp only [bind, Except.bind, decide_eq_true early, decide_eq_true none]

theorem httpRead_tidy (tidy : Tidy stream) (cut : IsCut pieces stream) :
    httpRead pieces = outcome stream 0 := by
  obtain ⟨used, equal, within⟩ := httpRead_eq_outcome cut
  rw [equal]
  cases split : splitBlock stream with
  | none => rw [outcome, outcome, split]
  | some found => exact outcome_tidy tidy (within found.1 found.2 split).2

/-- A stream is framed alike in all its cuttings, exactly when it is tidy. -/
theorem framed_iff (stream : Bytes) : Framed stream ↔ Tidy stream := by
  constructor
  · intro framed block rest split accepted
    refine ⟨?_, (unambiguous_iff accepted).mp (framed.unambiguous block rest split accepted)⟩
    by_contra longer
    rw [not_le] at longer
    have present : rest ≠ [] := by
      rintro rfl
      exact absurd longer (Nat.not_lt_zero _)
    obtain ⟨equal, -, position, -, length⟩ := splitBlock_eq_some split
    have filled : block ≠ [] := by
      rintro rfl
      cases length
    have cut : IsCut [block, rest] stream := by
      rw [equal]
      exact (isCut_whole present).cons filled
    have answer := framed.refused block rest split longer [block, rest] cut
    obtain ⟨head, parsed⟩ := Except.exists_of_isOk accepted
    have declared := (parseHeaders_ok parsed).2.2
    rw [httpRead_apart split present, outcome, split] at answer
    have early : block.length - block.length ≤ head.declared := by omega
    have enough : head.declared ≤ rest.length := by omega
    simp only [parsed, bind, Except.bind, decide_eq_true early, decide_eq_true enough] at answer
    cases answer
  intro tidy
  constructor
  · intro pieces others cut cut'
    rw [httpRead_tidy tidy cut, httpRead_tidy tidy cut']
  · intro pieces request cut accepted
    rw [httpRead_tidy tidy cut] at accepted
    obtain ⟨block, rest, head, split, parsed, -, enough, rfl⟩ := outcome_ok accepted
    refine ⟨block, rest, head, split, parsed, rfl, rfl, ?_⟩
    rw [← (parseHeaders_ok parsed).2.2]
    exact ⟨rfl, length_take_of_le enough⟩
  · intro block rest split longer pieces cut
    rw [httpRead_tidy tidy cut]
    cases answer : outcome stream 0 with
    | error rejection => rfl
    | ok request => ?_
    obtain ⟨block', rest', head, split', parsed, -⟩ := outcome_ok answer
    cases split.symm.trans split'
    have accepted : (parseHeaders block).isOk = true := by
      rw [parsed]
      rfl
    exact absurd (tidy block rest split accepted).1 (not_le.mpr longer)
  · intro block rest split accepted
    exact (unambiguous_iff accepted).mpr (tidy block rest split accepted).2

/-- A `GET` without a body. -/
def plainGet : Bytes := [71, 69, 84, 32, 47, 32] ++ httpVersion ++ blankLine

/-- A `GET` whose `Transfer-Encoding` has a blank before the colon. -/
def spacedEncoding : Bytes :=
  [71, 69, 84, 32, 47, 32] ++ httpVersion ++ [13, 10] ++ transferEncodingName ++
    [32, 58, 120] ++ blankLine

/-- The byte behind the request is refused when it comes with it and passed over when it comes
later, and the blank hides the encoding. -/
theorem httpRead_depends_on_pieces : httpRead [plainGet ++ [88]] =
        .error ⟨.format, "bytes beyond Content-Length are refused"⟩ ∧
      httpRead [plainGet, [88]] = .ok ⟨[71, 69, 84], [47], []⟩ ∧
      httpRead [spacedEncoding] = .ok ⟨[71, 69, 84], [47], []⟩ ∧
      (fieldLines spacedEncoding).countP (meansField transferEncodingName) = 1 := by
  decide +kernel

end Yvex.Server.OpenAi
