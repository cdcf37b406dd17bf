import Mathlib.Data.List.Sort
import Yvex.Core.Utf8
import Yvex.Foundation.Digest

namespace Yvex.Tokenizer

open List

/-! # Added tokens

A text is split at its added tokens before anything else is encoded. They are found through one
bucket for each first byte, which a single walk over the sorted tokens fills. -/

inductive TokenType where
  | unknown
  | normal
  | unk
  | control
  | userDefined
  | unused
  | byte
deriving DecidableEq

/-- `yvex_token_info`, without its score. -/
structure TokenInfo where
  id : Nat
  text : Bytes
  type : TokenType
deriving DecidableEq

namespace TokenInfo

variable (token : TokenInfo)

def isAdded : Bool := token.type == .control || token.type == .userDefined

/-- The first byte that `added_compare` reads. -/
def first : Nat := (token.text.head?.map UInt8.toNat).getD 0

def beginsWith (byte : Nat) : Bool := token.text.head?.map UInt8.toNat == some byte

end TokenInfo

/-- `added_compare` puts the left token in front. -/
def addedLess (left right : TokenInfo) : Bool :=
  if left.first ≠ right.first then decide (left.first < right.first)
  else if left.text.length ≠ right.text.length then
    decide (right.text.length < left.text.length)
  else decide (left.id < right.id)

/-- `added_sort`: each token moves towards the front past those it precedes. The part that is
sorted already is kept with its last token first. -/
def addedSort (tokens : List TokenInfo) : List TokenInfo :=
  (tokens.foldl (fun sorted value =>
    sorted.orderedInsert (fun value last => ¬ addedLess value last) value) []).reverse

/-- `added_tokens_build`: the tokens that `added_token_ids` names, in their order. -/
def addedTokensBuild (vocabulary : List TokenInfo) (policyCount : Nat) :
    Except Rejection (List TokenInfo) := do
  let added := vocabulary.filter TokenInfo.isAdded
  require (added.length == policyCount) .format
    "added-token set differs from the compiled tokenizer policy"
  return addedSort added

/-- The cursor of `added_tokens_build` when it comes to a byte. -/
def bucketCursor (added : List TokenInfo) : Nat → Nat
  | 0 => 0
  | byte + 1 =>
    let cursor := bucketCursor added byte
    cursor + ((added.drop cursor).takeWhile (TokenInfo.beginsWith · byte)).length

section

variable (added : List TokenInfo)

def addedBucketStart (byte : Nat) : Nat :=
  if byte = 256 then added.length else bucketCursor added byte

def bucket (byte : Nat) : List TokenInfo :=
  (added.drop (addedBucketStart added byte)).take
    (addedBucketStart added (byte + 1) - addedBucketStart added byte)

/-- Whether `added_at` takes a token of the bucket for the text that is left. -/
def accepts (allowSpecial : Bool) (rest : Bytes) (token : TokenInfo) : Bool :=
  !(!allowSpecial && token.type == .control || token.text.isEmpty ||
    decide (rest.length < token.text.length)) &&
  rest.take token.text.length == token.text

def addedAt (allowSpecial : Bool) : Bytes → Option TokenInfo
  | [] => none
  | byte :: others => (bucket added byte.toNat).find? (accepts allowSpecial (byte :: others))

end

/-- `next_added_offset`, counted from where it starts. -/
def nextAddedOffset (added : List TokenInfo) (allowSpecial : Bool) : Bytes → Nat
  | [] => 0
  | byte :: others =>
    if (addedAt added allowSpecial (byte :: others)).isSome then 0
    else nextAddedOffset added allowSpecial others + 1

/-- `ordinary_encode` appends the tokens of a text without added tokens, and
`yvex_tokenizer_nfc_normalize` prepares a text. -/
class EncodeParts where
  ordinaryEncode : Bytes → List Nat → Nat → Except Rejection (List Nat)
  nfcNormalize : Bytes → Except Rejection Bytes

open EncodeParts

def encodeAppend (tokens : List Nat) (id maximum : Nat) : Except Rejection (List Nat) := do
  require (decide (tokens.length < maximum)) .tokenCapacity
    s!"encoded token buffer capacity exceeded: limit={maximum}"
  return tokens ++ [id]

/-- The loop of `yvex_tokenizer_encode` over the normalized text, which takes a byte at least in
every round. -/
def encodeLoop [EncodeParts] (added : List TokenInfo) (allowSpecial : Bool) (maximum : Nat) :
    Nat → Bytes → List Nat → Except Rejection (List Nat)
  | 0, _, tokens => .ok tokens
  | _ + 1, [], tokens => .ok tokens
  | rounds + 1, byte :: others, tokens =>
    match addedAt added allowSpecial (byte :: others) with
    | some token => do
      let tokens ← encodeAppend tokens token.id maximum
      encodeLoop added allowSpecial maximum rounds
        ((byte :: others).drop token.text.length) tokens
    | none => do
      let count := nextAddedOffset added allowSpecial others + 1
      let tokens ← ordinaryEncode ((byte :: others).take count) tokens maximum
      encodeLoop added allowSpecial maximum rounds ((byte :: others).drop count) tokens

structure EncodeOptions where
  addBos : Bool
  addEos : Bool
  allowSpecialTokens : Bool
  maximumTokens : Nat

def EncodeOptions.absent : EncodeOptions := ⟨false, false, true, 0⟩

def EncodeOptions.maximum (options : EncodeOptions) : Nat :=
  if options.maximumTokens = 0 then u64Max else options.maximumTokens

/-- What `yvex_tokenizer_encode` reads of a tokenizer. -/
structure EncodeTokenizer where
  planSealed : Bool
  addBosToken : Bool
  addEosToken : Bool
  bos : Option Nat
  eos : Option Nat
  tokenizerPre : CString
  added : List TokenInfo

def insertSpecial (wanted : Bool) (id : Option Nat) (maximum : Nat) (tokens : List Nat) :
    Except Rejection (List Nat) :=
  if wanted then
    match id with
    | none => .error ⟨.unsupported, ""⟩
    | some id => encodeAppend tokens id maximum
  else .ok tokens

/-- `yvex_tokenizer_encode`, from the normalized text on. -/
def encodeNormalized [EncodeParts] (tokenizer : EncodeTokenizer) (options : EncodeOptions)
    (normalized : Bytes) : Except Rejection (List Nat) := do
  let tokens ← insertSpecial options.addBos tokenizer.bos options.maximum []
  let tokens ← encodeLoop tokenizer.added options.allowSpecialTokens options.maximum
    normalized.length normalized tokens
  insertSpecial options.addEos tokenizer.eos options.maximum tokens

def normalizingPres : List CString :=
  [CString.ofBytes [113, 119, 101, 110, 50], CString.ofBytes
    [98, 121, 116, 101, 108, 101, 118, 101, 108, 45, 110, 102, 99]]

def tokenizerEncode [EncodeParts] (tokenizer : EncodeTokenizer) (options : EncodeOptions)
    (bytes : Bytes) : Except Rejection (List Nat) := do
  require tokenizer.planSealed .state "tokenizer execution policy is not sealed"
  require (!(options.addBos && !tokenizer.addBosToken || options.addEos && !tokenizer.addEosToken))
    .unsupported "requested BOS/EOS insertion is not admitted by the tokenizer policy"
  require (Utf8.valid bytes) .format "input is not canonical UTF-8"
  let normalized ← if tokenizer.tokenizerPre ∈ normalizingPres then nfcNormalize bytes
    else .ok bytes
  encodeNormalized tokenizer options normalized

/-! ## The order of the added tokens -/

theorem addedLess_iff : addedLess left right = true ↔
    left.first < right.first ∨ left.first = right.first ∧ (right.text.length < left.text.length ∨
        right.text.length = left.text.length ∧ left.id < right.id) := by
  rw [addedLess]
  split_ifs with first length <;> rw [decide_eq_true_eq] <;> omega

/-- The order in which `addedSort` keeps the part that is sorted. -/
def NotBefore (left right : TokenInfo) : Prop := ¬ addedLess left right = true

instance : DecidableRel NotBefore := fun left right =>
  inferInstanceAs (Decidable (¬ addedLess left right = true))

instance : Std.Total NotBefore where
  total left right := by
    simp only [NotBefore, addedLess_iff]
    omega

instance : IsTrans TokenInfo NotBefore where
  trans left middle right := by
    simp only [NotBefore, addedLess_iff]
    omega

theorem addedSort_eq (tokens : List TokenInfo) :
    addedSort tokens = (tokens.reverse.insertionSort NotBefore).reverse := by
  rw [List.insertionSort, foldr_reverse]
  rfl

variable {token : TokenInfo}

theorem mem_addedSort : token ∈ addedSort tokens ↔ token ∈ tokens := by
  rw [addedSort_eq, mem_reverse, mem_insertionSort, mem_reverse]

def Ordered (added : List TokenInfo) : Prop :=
  added.Pairwise fun left right => ¬ addedLess right left = true

structure IsTable (vocabulary added : List TokenInfo) : Prop where
  ordered : Ordered added
  members : ∀ token, token ∈ added ↔ token ∈ vocabulary ∧ token.isAdded = true

variable {vocabulary added : List TokenInfo}

theorem addedTokensBuild_isTable
    (built : addedTokensBuild vocabulary policyCount = .ok added) : IsTable vocabulary added := by
  obtain ⟨_, -, same⟩ := Except.bind_eq_ok.mp built
  cases same
  refine ⟨?_, fun token => by rw [mem_addedSort, mem_filter]⟩
  rw [Ordered, addedSort_eq, pairwise_reverse]
  exact pairwise_insertionSort NotBefore _

/-! ## The buckets -/

variable {byte : Nat}

theorem beginsWith_iff : token.beginsWith byte = true ↔ token.text ≠ [] ∧ token.first = byte := by
  rw [TokenInfo.beginsWith, TokenInfo.first]
  cases token.text <;> simp

section

variable (added : List TokenInfo) (byte : Nat)

theorem take_bucketCursor_succ :
    added.take (bucketCursor added (byte + 1)) = added.take (bucketCursor added byte) ++
      (added.drop (bucketCursor added byte)).takeWhile (TokenInfo.beginsWith · byte) := by
  rw [bucketCursor, take_add]
  congr 1
  exact (prefix_iff_eq_take.mp ( takeWhile_prefix _)).symm

theorem drop_bucketCursor_succ : added.drop (bucketCursor added (byte + 1)) =
      (added.drop (bucketCursor added byte)).dropWhile (TokenInfo.beginsWith · byte) := by
  rw [bucketCursor, ← drop_drop]
  generalize added.drop (bucketCursor added byte) = rest
  have whole := takeWhile_append_dropWhile (p := (TokenInfo.beginsWith · byte)) (l := rest)
  have dropped := congrArg (List.drop (rest.takeWhile (TokenInfo.beginsWith · byte)).length) whole
  rw [drop_left] at dropped
  exact dropped.symm

theorem bucketCursor_le : bucketCursor added byte ≤ added.length := by
  induction byte with
  | zero => exact Nat.zero_le _
  | succ byte induction => ?_
  have front := List.Sublist.length_le (takeWhile_sublist
    (l := added.drop (bucketCursor added byte)) (TokenInfo.beginsWith · byte))
  rw [length_drop] at front
  rw [bucketCursor]
  omega

end

theorem first_lt_of_mem_take (member : token ∈ added.take (bucketCursor added byte)) :
    token.text ≠ [] ∧ token.first < byte := by
  induction byte with
  | zero => cases member
  | succ byte induction => ?_
  rw [take_bucketCursor_succ, mem_append] at member
  rcases member with before | here
  · obtain ⟨present, less⟩ := induction before
    exact ⟨present, Nat.lt_succ_of_lt less⟩
  have begins : token.beginsWith byte = true :=
    mem_takeWhile_imp (p := (TokenInfo.beginsWith · byte)) here
  obtain ⟨present, same⟩ := beginsWith_iff.mp begins
  exact ⟨present, by omega⟩

/-- The walk can pass all tokens: none is empty, or an empty one hides no other. -/
def Reached (vocabulary : List TokenInfo) : Prop :=
  (∀ token ∈ vocabulary, token.isAdded = true → token.text ≠ []) ∨
    ∀ token ∈ vocabulary, token.isAdded = true → token.text ≠ [] →
      token.first = 0 ∨ token.first = 255

variable {rest : List TokenInfo}

theorem first_of_dropWhile (stops : rest.dropWhile (TokenInfo.beginsWith · byte) = stop :: later) :
    stop.text ≠ [] → stop.first ≠ byte := by
  have differs := head?_dropWhile_not (TokenInfo.beginsWith · byte) rest
  rw [stops] at differs
  intro present same
  rw [head?_cons] at differs
  dsimp only at differs
  rw [beginsWith_iff.mpr ⟨present, same⟩] at differs
  cases differs

theorem first_of_mem_dropWhile (ordered : Ordered rest)
    (above : ∀ token ∈ rest, token.text ≠ [] → byte ≤ token.first)
    (clear : byte = 0 ∨ ∀ token ∈ rest, token.text ≠ [])
    (member : token ∈ rest.dropWhile (TokenInfo.beginsWith · byte)) (present : token.text ≠ []) :
    byte + 1 ≤ token.first := by
  have suffix := dropWhile_suffix (l := rest) (TokenInfo.beginsWith · byte)
  have least := above token (suffix.subset member) present
  by_contra small
  have same : token.first = byte := by omega
  have length := length_pos_of_ne_nil present
  cases stops : rest.dropWhile (TokenInfo.beginsWith · byte) with
  | nil =>
    rw [stops] at member
    cases member
  | cons stop later => ?_
  rw [stops] at member suffix
  have differs := first_of_dropWhile stops
  rcases mem_cons.mp member with rfl | behind
  · exact differs present same
  have order := (pairwise_cons.mp (ordered.sublist suffix.sublist)).1 token behind
  rw [addedLess_iff] at order
  have stopped := above stop (suffix.subset (mem_cons_self ..))
  rcases clear with zero | none
  · by_cases empty : stop.text = []
    · rw [empty, length_nil] at order
      omega
    · have := differs empty
      omega
  · have nonempty := none stop (suffix.subset (mem_cons_self ..))
    have := stopped nonempty
    have := differs nonempty
    omega

theorem le_first_of_mem_drop (table : IsTable vocabulary added) (reached : Reached vocabulary)
    (small : byte ≤ 255) (member : token ∈ added.drop (bucketCursor added byte))
    (present : token.text ≠ []) : byte ≤ token.first := by
  induction byte generalizing token with
  | zero => exact Nat.zero_le _
  | succ byte induction => ?_
  have above : ∀ token ∈ added.drop (bucketCursor added byte), token.text ≠ [] →
      byte ≤ token.first := fun token member => induction (by omega) member
  rw [drop_bucketCursor_succ] at member
  have behind := ( dropWhile_suffix _).subset member
  have ordered := table.ordered.sublist (drop_sublist (bucketCursor added byte) added)
  by_cases zero : byte = 0
  · exact first_of_mem_dropWhile ordered above (.inl zero) member present
  rcases reached with nonempty | ends
  · refine first_of_mem_dropWhile ordered above (.inr fun other behind => ?_) member present
    obtain ⟨known, isAdded⟩ := (table.members other).mp (mem_of_mem_drop behind)
    exact nonempty other known isAdded
  obtain ⟨known, isAdded⟩ := (table.members token).mp (mem_of_mem_drop behind)
  have least := above token behind present
  have := ends token known isAdded present
  omega

theorem mem_bucket (table : IsTable vocabulary added) (reached : Reached vocabulary)
    (member : token ∈ added) (present : token.text ≠ []) (small : token.first ≤ 255) :
    token ∈ bucket added token.first := by
  have start : addedBucketStart added token.first = bucketCursor added token.first :=
    if_neg (by omega)
  have inside : token ∈ added.drop (bucketCursor added token.first) := by
    rw [← take_append_drop (bucketCursor added token.first) added, mem_append] at member
    refine member.resolve_left fun before => ?_
    exact lt_irrefl _ (first_lt_of_mem_take before).2
  rw [bucket, start]
  rw [← take_append_drop (addedBucketStart added (token.first + 1) -
    bucketCursor added token.first) (added.drop _), mem_append, drop_drop] at inside
  refine inside.resolve_right fun behind => ?_
  have limit := bucketCursor_le added token.first
  by_cases last : token.first = 255
  · rw [addedBucketStart, if_pos (by omega), Nat.add_sub_cancel' limit, drop_length] at behind
    cases behind
  have grows : bucketCursor added token.first ≤ bucketCursor added (token.first + 1) :=
    Nat.le_add_right _ _
  rw [addedBucketStart, if_neg (by omega), Nat.add_sub_cancel' grows] at behind
  exact Nat.not_succ_le_self _
    (le_first_of_mem_drop table reached (by omega) behind present)

/-! ## The splitting that is meant -/

inductive Piece where
  | added (token : TokenInfo)
  | ordinary (bytes : Bytes)

structure Matches (vocabulary : List TokenInfo) (allowSpecial : Bool) (rest : Bytes)
    (token : TokenInfo) : Prop where
  member : token ∈ vocabulary
  kind : token.type = .userDefined ∨ allowSpecial = true ∧ token.type = .control
  present : token.text ≠ []
  here : token.text <+: rest

/-- The leftmost and longest splitting of a text. -/
inductive Splits (vocabulary : List TokenInfo) (allowSpecial : Bool) :
    Bytes → List Piece → Prop where
  | done : Splits vocabulary allowSpecial [] []
  | added {rest : Bytes} {pieces : List Piece} {token : TokenInfo}
      (found : Matches vocabulary allowSpecial rest token)
      (longest : ∀ other, Matches vocabulary allowSpecial rest other →
        other.text.length ≤ token.text.length)
      (others : Splits vocabulary allowSpecial (rest.drop token.text.length) pieces) :
      Splits vocabulary allowSpecial rest (.added token :: pieces)
  | ordinary {rest : Bytes} {pieces : List Piece} (count : Nat) (some : 0 < count)
      (inside : count ≤ rest.length)
      (unmatched : ∀ position < count, ∀ token,
        ¬ Matches vocabulary allowSpecial (rest.drop position) token)
      (maximal : rest.drop count ≠ [] →
        ∃ token, Matches vocabulary allowSpecial (rest.drop count) token)
      (others : Splits vocabulary allowSpecial (rest.drop count) pieces) :
      Splits vocabulary allowSpecial rest (.ordinary (rest.take count) :: pieces)

def emit [EncodeParts] (maximum : Nat) (tokens : List Nat) : Piece → Except Rejection (List Nat)
  | .added token => encodeAppend tokens token.id maximum
  | .ordinary bytes => ordinaryEncode bytes tokens maximum

/-! ## Finding a token -/

variable {allowSpecial : Bool} {rest : Bytes}

theorem accepts_iff (member : token ∈ vocabulary) (isAdded : token.isAdded = true) :
    accepts allowSpecial rest token = true ↔ Matches vocabulary allowSpecial rest token := by
  have shape : accepts allowSpecial rest token = true ↔
      ((allowSpecial = true ∨ token.type ≠ .control) ∧ token.text ≠ [] ∧
        token.text.length ≤ rest.length) ∧ rest.take token.text.length = token.text := by
    simp [accepts, and_assoc]
  have kinds : token.type = .control ∨ token.type = .userDefined := by
    simpa [TokenInfo.isAdded] using isAdded
  rw [shape]
  constructor
  · rintro ⟨⟨allowed, present, -⟩, same⟩
    refine ⟨member, ?_, present, prefix_iff_eq_take.mpr same.symm⟩
    rcases kinds with control | userDefined
    · exact .inr ⟨allowed.resolve_right fun other => other control, control⟩
    · exact .inl userDefined
  rintro ⟨-, kind, present, here⟩
  refine ⟨⟨?_, present, here.length_le⟩, (prefix_iff_eq_take.mp here).symm⟩
  rcases kind with userDefined | ⟨allowed, -⟩
  · exact .inr (by simp [userDefined])
  · exact .inl allowed

theorem Matches.isAdded (found : Matches vocabulary allowSpecial rest token) :
    token.isAdded = true := by
  rcases found.kind with userDefined | ⟨-, control⟩
  · simp [TokenInfo.isAdded, userDefined]
  · simp [TokenInfo.isAdded, control]

variable {byte : UInt8} {others : Bytes}

theorem Matches.first_eq (found : Matches vocabulary allowSpecial (byte :: others) token) :
    token.first = byte.toNat := by
  obtain ⟨behind, whole⟩ := found.here
  rw [TokenInfo.first]
  cases text : token.text with
  | nil => exact absurd text found.present
  | cons first letters => ?_
  rw [text] at whole
  cases whole
  rfl

theorem nextAddedOffset_spec (added : List TokenInfo) (allowSpecial : Bool) (rest : Bytes) :
    nextAddedOffset added allowSpecial rest ≤ rest.length ∧
      (∀ position < nextAddedOffset added allowSpecial rest,
        addedAt added allowSpecial (rest.drop position) = none) ∧
      (rest.drop (nextAddedOffset added allowSpecial rest) ≠ [] → (addedAt added allowSpecial
          (rest.drop (nextAddedOffset added allowSpecial rest))).isSome = true) := by
  induction rest with
  | nil => exact ⟨le_rfl, fun _ less => absurd less (Nat.not_lt_zero _), by simp⟩
  | cons byte others induction => ?_
  obtain ⟨limit, before, here⟩ := induction
  rw [nextAddedOffset]
  split
  · grind
  rename_i absent
  refine ⟨Nat.succ_le_succ limit, fun position less => ?_, here⟩
  cases position with
  | zero => simpa using absent
  | succ position => exact before position (Nat.succ_lt_succ_iff.mp less)

section
variable {vocabulary added : List TokenInfo} (table : IsTable vocabulary added)
  (reached : Reached vocabulary) {allowSpecial : Bool}
include table reached

variable {token : TokenInfo}

theorem Matches.mem_bucket (found : Matches vocabulary allowSpecial (byte :: others) token) :
    token ∈ bucket added byte.toNat := by
  rw [← found.first_eq]
  apply Tokenizer.mem_bucket table reached
  · exact (table.members token).mpr ⟨found.member, found.isAdded⟩
  · exact found.present
  · rw [found.first_eq]
    exact Nat.lt_succ_iff.mp byte.toNat_lt

variable {rest : Bytes}

theorem addedAt_eq_none (absent : addedAt added allowSpecial rest = none) (token : TokenInfo) :
    ¬ Matches vocabulary allowSpecial rest token := by
  intro found
  cases rest with
  | nil => exact found.present ( prefix_nil.mp found.here)
  | cons byte others =>
    have refused := find?_eq_none.mp absent token (found.mem_bucket table reached)
    exact refused ((accepts_iff found.member found.isAdded).mpr found)

theorem addedAt_eq_some (taken : addedAt added allowSpecial rest = some token) :
    Matches vocabulary allowSpecial rest token ∧ ∀ other,
      Matches vocabulary allowSpecial rest other → other.text.length ≤ token.text.length := by
  cases rest with
  | nil => cases taken
  | cons byte others => ?_
  obtain ⟨accepted, front, behind, split, refused⟩ := find?_eq_some_iff_append.mp taken
  have part : (bucket added byte.toNat).Sublist added := (take_sublist _ _).trans (drop_sublist _ _)
  have ordered : Ordered (front ++ token :: behind) := split ▸ table.ordered.sublist part
  obtain ⟨known, isAdded⟩ := (table.members token).mp
    (part.subset (split ▸ mem_append_right _ (mem_cons_self ..)))
  have found := (accepts_iff known isAdded).mp accepted
  refine ⟨found, fun other matched => ?_⟩
  have inside := matched.mem_bucket table reached
  rw [split, mem_append, mem_cons] at inside
  rcases inside with before | rfl | later
  · have passed := refused other before
    rw [(accepts_iff matched.member matched.isAdded).mpr matched] at passed
    cases passed
  · exact le_rfl
  · have order := (pairwise_cons.mp (pairwise_append.mp ordered).2.1).1 other later
    rw [addedLess_iff, matched.first_eq, found.first_eq] at order
    omega

theorem encodeLoop_splits [EncodeParts] {maximum : Nat} (rounds : Nat) {rest : Bytes}
    (enough : rest.length ≤ rounds) :
    ∃ pieces, Splits vocabulary allowSpecial rest pieces ∧ ∀ tokens,
      encodeLoop added allowSpecial maximum rounds rest tokens =
        pieces.foldlM (emit maximum) tokens := by
  induction rounds generalizing rest with
  | zero =>
    cases length_eq_zero_iff.mp (Nat.le_zero.mp enough)
    exact ⟨[], .done, fun _ => rfl⟩
  | succ rounds induction => ?_
  cases rest with
  | nil => exact ⟨[], .done, fun _ => rfl⟩
  | cons byte others => ?_
  rw [length_cons] at enough
  cases taken : addedAt added allowSpecial (byte :: others) with
  | some token =>
    obtain ⟨found, longest⟩ := addedAt_eq_some table reached taken
    have length := length_pos_of_ne_nil found.present
    have fewer : ((byte :: others).drop token.text.length).length ≤ rounds := by
      rw [length_drop, length_cons]
      omega
    obtain ⟨pieces, splits, same⟩ := induction fewer
    refine ⟨.added token :: pieces, .added found longest splits, fun tokens => ?_⟩
    simp only [encodeLoop, taken, same, foldlM_cons, emit]
  | none =>
    obtain ⟨limit, before, here⟩ := nextAddedOffset_spec added allowSpecial others
    have fewer : ((byte :: others).drop
        (nextAddedOffset added allowSpecial others + 1)).length ≤ rounds := by
      rw [length_drop, length_cons]
      omega
    obtain ⟨pieces, splits, same⟩ := induction fewer
    refine ⟨_, .ordinary (nextAddedOffset added allowSpecial others + 1)
      (Nat.succ_pos _) (Nat.succ_le_succ limit) (fun position less => ?_)
      (fun more => ?_) splits, fun tokens => ?_⟩
    · cases position with
      | zero => exact addedAt_eq_none table reached taken
      | succ position =>
        exact addedAt_eq_none table reached
          (before position (Nat.succ_lt_succ_iff.mp less))
    · obtain ⟨token, taken⟩ := Option.isSome_iff_exists.mp (here more)
      exact ⟨token, (addedAt_eq_some table reached taken).1⟩
    · simp only [encodeLoop, taken, same, foldlM_cons, emit]

end

/-! ## An empty token

The walk stops for good at an empty token: all buckets but the first and the last are empty. -/

variable {empty : TokenInfo}

theorem bucketCursor_stuck (table : IsTable vocabulary added) (member : empty ∈ added)
    (absent : empty.text = []) (byte : Nat) :
    bucketCursor added (byte + 1) = bucketCursor added 1 := by
  have first : empty.first = 0 := by rw [TokenInfo.first, absent]; rfl
  obtain ⟨stop, later, stops, stopped⟩ : ∃ stop later,
      added.drop (bucketCursor added 1) = stop :: later ∧ stop.text = [] := by
    have behind : empty ∈ added.drop (bucketCursor added 1) := by
      rw [← take_append_drop (bucketCursor added 1) added, mem_append] at member
      exact member.resolve_left fun before => (first_lt_of_mem_take before).1 absent
    cases stops : added.drop (bucketCursor added 1) with
    | nil =>
      rw [stops] at behind
      cases behind
    | cons stop later => ?_
    refine ⟨stop, later, rfl, by_contra fun present => ?_⟩
    have differs : stop.first ≠ 0 :=
      first_of_dropWhile ((drop_bucketCursor_succ added 0).symm.trans stops) present
    have ordered := table.ordered.sublist (drop_sublist (bucketCursor added 1) added)
    rw [stops] at behind ordered
    rcases mem_cons.mp behind with rfl | behind
    · exact present absent
    have order := (pairwise_cons.mp ordered).1 empty behind
    rw [addedLess_iff] at order
    omega
  induction byte with
  | zero => rfl
  | succ byte induction =>
    rw [bucketCursor, induction, stops, takeWhile_cons, TokenInfo.beginsWith, stopped]
    rfl

/-- With an empty token, no token is found that begins with a byte between the first and the
last. -/
theorem addedAt_of_empty (table : IsTable vocabulary added) (member : empty ∈ added)
    (absent : empty.text = []) (small : byte.toNat ≠ 0) (large : byte.toNat ≠ 255)
    (allowSpecial : Bool) : addedAt added allowSpecial (byte :: others) = none := by
  have limit := byte.toNat_lt
  obtain ⟨before, same⟩ := Nat.exists_eq_succ_of_ne_zero small
  rw [addedAt, bucket, addedBucketStart, addedBucketStart, if_neg (by omega), if_neg (by omega),
    same, bucketCursor_stuck table member absent before,
    bucketCursor_stuck table member absent (before + 1), Nat.sub_self]
  rfl

theorem Splits.whole {vocabulary : List TokenInfo} {allowSpecial : Bool} {token : TokenInfo}
    {pieces : List Piece} (splits : Splits vocabulary allowSpecial token.text pieces)
    (found : Matches vocabulary allowSpecial token.text token) :
    ∃ other, Matches vocabulary allowSpecial token.text other ∧
      other.text.length = token.text.length ∧ pieces = [.added other] := by
  generalize whole : token.text = rest at splits found
  cases splits with
  | done => exact absurd whole found.present
  | ordinary count some _ unmatched => exact absurd found (unmatched 0 some token)
  | @added _ pieces other matched longest others =>
    have length := longest token found
    rw [whole] at length
    have same := le_antisymm matched.here.length_le length
    rw [same, drop_length] at others
    refine ⟨other, matched, same, ?_⟩
    cases others with
    | done => rfl
    | added matched => exact absurd ( prefix_nil.mp matched.here) matched.present
    | ordinary count some inside => exact absurd (some.trans_le inside) (lt_irrefl 0)

variable (vocabulary : List TokenInfo)

/-- Every text is encoded piece by piece along its leftmost and longest splitting. -/
def SplitsTexts (tokenizer : EncodeTokenizer) : Prop :=
  ∀ (_ : EncodeParts) (options : EncodeOptions) (normalized : Bytes),
    ∃ pieces, Splits vocabulary options.allowSpecialTokens normalized pieces ∧
      encodeNormalized tokenizer options normalized = do
        let tokens ← insertSpecial options.addBos tokenizer.bos options.maximum []
        let tokens ← pieces.foldlM (emit options.maximum) tokens
        insertSpecial options.addEos tokenizer.eos options.maximum tokens

/-- The added tokens of every text are found, leftmost and longest, exactly when an empty token
does not hide another one. -/
theorem encodeNormalized_splits {vocabulary : List TokenInfo} {policyCount : Nat}
    {tokenizer : EncodeTokenizer}
    (built : addedTokensBuild vocabulary policyCount = .ok tokenizer.added) :
    SplitsTexts vocabulary tokenizer ↔ Reached vocabulary := by
  have table := addedTokensBuild_isTable built
  constructor
  · intro splitting
    by_contra hidden
    rw [Reached] at hidden
    push Not at hidden
    obtain ⟨⟨empty, known, isAdded, absent⟩, token, member, addedToken, present, small, large⟩ :=
      hidden
    have found : Matches vocabulary true token.text token :=
      ⟨member, by simpa [TokenInfo.isAdded, or_comm] using addedToken, present, prefix_rfl⟩
    have hides : ∀ allowSpecial, addedAt tokenizer.added allowSpecial token.text = none := by
      rw [TokenInfo.first] at small large
      cases text : token.text with
      | nil => exact absurd text present
      | cons byte others =>
        rw [text] at small large
        exact addedAt_of_empty table ((table.members empty).mpr ⟨known, isAdded⟩) absent small large
    -- A text that is no token is refused here, so that the token shows.
    obtain ⟨pieces, splits, same⟩ := splitting ⟨fun _ _ _ => .error ⟨.ok, ""⟩, .ok⟩ .absent
      token.text
    obtain ⟨other, -, -, rfl⟩ := splits.whole found
    have left : @encodeNormalized ⟨fun _ _ _ => .error ⟨.ok, ""⟩, .ok⟩ tokenizer .absent token.text =
        .error ⟨.ok, ""⟩ := by
      cases text : token.text with
      | nil => exact absurd text present
      | cons byte others => ?_
      have hidden := hides true
      rw [text] at hidden
      simp only [encodeNormalized, EncodeOptions.absent, length_cons, encodeLoop, hidden]
      rfl
    rw [left] at same
    cases same
  · intro reached parts options normalized
    obtain ⟨pieces, splits, same⟩ := @encodeLoop_splits _ _ table reached
      options.allowSpecialTokens _ options.maximum _ normalized le_rfl
    exact ⟨pieces, splits, by simp only [encodeNormalized, same]⟩

def addedTokenizer : EncodeTokenizer := ⟨true, false, false, none, none, CString.ofBytes [],
    addedSort (vocabulary.filter TokenInfo.isAdded)⟩

/-- The tokens `a`, `<a>` and `<`. -/
def nestedTokens : List TokenInfo :=
  [⟨0, [97], .normal⟩, ⟨1, [60, 97, 62], .control⟩, ⟨2, [60], .userDefined⟩]

theorem encodeNormalized_splits_nested :
    addedTokensBuild nestedTokens 2 = .ok (addedTokenizer nestedTokens).added ∧
      SplitsTexts nestedTokens (addedTokenizer nestedTokens) := by
  refine ⟨rfl, (@encodeNormalized_splits nestedTokens 2 (addedTokenizer nestedTokens) rfl).mpr ?_⟩
  exact .inl (by decide)

/-- A control token without text and the token `a`. -/
def hidingTokens : List TokenInfo := [⟨0, [], .control⟩, ⟨1, [97], .userDefined⟩]

@[reducible] def bytewise : EncodeParts :=
  ⟨fun bytes tokens _ => .ok (tokens ++ bytes.map UInt8.toNat), .ok⟩

/-- The token `a` is not found behind the empty one. -/
theorem encodeNormalized_hides :
    addedTokensBuild hidingTokens 2 = .ok (addedTokenizer hidingTokens).added ∧
      @encodeNormalized bytewise (addedTokenizer hidingTokens) .absent [97] = .ok [97] ∧
      ∀ pieces, Splits hidingTokens true [97] pieces →
        pieces = [.added ⟨1, [97], .userDefined⟩] := by
  refine ⟨rfl, rfl, fun pieces splits => ?_⟩
  have found : Matches hidingTokens true [97] ⟨1, [97], .userDefined⟩ :=
    ⟨by decide, by decide, by decide, prefix_rfl⟩
  obtain ⟨other, matched, -, rfl⟩ := @Splits.whole _ _ ⟨1, [97], .userDefined⟩ _ splits found
  have member := matched.member
  rw [hidingTokens, mem_cons, mem_singleton] at member
  rcases member with rfl | rfl
  · exact absurd rfl matched.present
  · rfl

end Yvex.Tokenizer
