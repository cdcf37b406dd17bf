import Yvex.Source.PayloadOpen

namespace Yvex.Source

open List Option Yvex.Except

open Provider (Sha256Hex)

/-! # The ranges of a session

An open session describes a catalogue in which every tensor has the bytes of its elements, inside
the data of its shard and apart from all other tensors. -/

def NativeDtype.bits (dtype : NativeDtype) : Option Nat :=
  if dtype = .fp4 then some 4 else dtype.width.map (8 * ·)

def ExactLength (tensor : NativeWeightInfo) (length : Nat) : Prop :=
  ∃ bits, tensor.dtype.bits = some bits ∧ 8 * length = tensor.dims.prod * bits

structure Placed (shard : ShardSnapshot) (tensor : NativeWeightInfo) : Prop where
  length : ExactLength tensor tensor.dataBytes
  ordered : tensor.dataStart ≤ tensor.dataEnd
  region : tensor.dataEnd ≤ shard.payloadBytes
  file : shard.dataRegionOffset + tensor.dataEnd ≤ shard.fileBytes

/-- A catalogue of disjoint exact ranges. -/
structure Catalogued (snapshot : TensorSnapshot) : Prop where
  placed : ∀ tensor ∈ snapshot.rows, ∃ shard,
    snapshot.shardFind tensor.shardPath = some shard ∧ Placed shard tensor
  disjoint : snapshot.rows.Pairwise fun left right => left.shardPath = right.shardPath →
    left.dataEnd ≤ right.dataStart ∨ right.dataEnd ≤ left.dataStart
  total : (snapshot.rows.map NativeWeightInfo.dataBytes).sum ≤ u64Max

/-- The range of a tensor, counted from the start of the file. -/
structure RangeOf (snapshot : TensorSnapshot) (tensor : NativeWeightInfo) (range : Range) :
    Prop where
  shard : ∃ shard, snapshot.shardFind tensor.shardPath = some shard ∧
    range.shardIndex = shard.canonicalId ∧
    range.absoluteBegin = shard.dataRegionOffset + tensor.dataStart ∧
    range.absoluteEnd = shard.dataRegionOffset + tensor.dataEnd
  length : range.byteLength = tensor.dataBytes

def Range.Apart (left right : Range) : Prop := left.shardIndex = right.shardIndex →
    left.absoluteEnd ≤ right.absoluteBegin ∨ right.absoluteEnd ≤ left.absoluteBegin

structure Describes (snapshot : TensorSnapshot) (session : Session) : Prop where
  ranges : List.Forall₂ (RangeOf snapshot) snapshot.rows session.ranges
  apart : session.ranges.Pairwise Range.Apart
  total : session.logicalTensorBytes = (session.ranges.map Range.byteLength).sum

theorem tensorElements_eq_some
    (counted : tensorElements dims = some elements) : elements = dims.prod := by
  suffices from_ : ∀ start, dims.foldlM (fun elements dimension => do
      ensure (dimension != 0)
      u64Mul elements dimension) start = some elements → elements = start * dims.prod by
    simpa using from_ 1 counted
  clear counted
  induction dims with
  | nil =>
    intro start counted
    simpa using counted.symm
  | cons dimension dims induction => ?_
  intro start counted
  rw [foldlM_cons, bind_eq_some] at counted
  obtain ⟨product, multiplied, counted⟩ := counted
  obtain ⟨_, _, multiplied⟩ := bind_eq_some_iff.mp multiplied
  rw [induction product counted, ← (u64Mul_eq_some.mp multiplied).1, prod_cons, mul_assoc]

theorem payloadTensorStorage_eq_some {length : Nat}
    (stored : payloadTensorStorage tensor = some length) : ExactLength tensor length := by
  obtain ⟨elements, counted, stored⟩ := bind_eq_some_iff.mp stored
  rw [ExactLength, ← tensorElements_eq_some counted, NativeDtype.bits]
  split at stored
  · rename_i half
    obtain ⟨_, even, stored⟩ := bind_eq_some_iff.mp stored
    have even : elements % 2 = 0 := by simpa using ensure_eq_some.mp even
    cases stored
    exact ⟨4, if_pos half, by omega⟩
  rename_i whole
  obtain ⟨width, known, stored⟩ := bind_eq_some_iff.mp stored
  refine ⟨8 * width, by rw [if_neg whole, known, map_some], ?_⟩
  rw [← (u64Mul_eq_some.mp stored).1]
  exact Nat.mul_left_comm ..

structure Indexed (snapshot : TensorSnapshot) (tensor : NativeWeightInfo) (total : Nat)
    (range : Range) (sum : Nat) : Prop where
  placed : ∃ shard, snapshot.shardFind tensor.shardPath = some shard ∧ Placed shard tensor
  described : RangeOf snapshot tensor range
  nonempty : range.absoluteBegin < range.absoluteEnd
  counted : sum = total + range.byteLength
  bounded : sum ≤ u64Max

variable {total : Nat} {sum : Nat}

theorem indexRange_eq_ok {range : Range}
    (accepted : indexRange snapshot tensor index total = .ok (range, sum)) :
    Indexed snapshot tensor total range sum := by
  obtain ⟨shard, found, accepted⟩ := bind_eq_ok.mp accepted
  obtain ⟨_, region, accepted⟩ := bind_eq_ok.mp accepted
  obtain ⟨_, stored, accepted⟩ := bind_eq_ok.mp accepted
  obtain ⟨absoluteBegin, first, accepted⟩ := bind_eq_ok.mp accepted
  obtain ⟨absoluteEnd, last, accepted⟩ := bind_eq_ok.mp accepted
  obtain ⟨_, file, accepted⟩ := bind_eq_ok.mp accepted
  obtain ⟨next, added, accepted⟩ := bind_eq_ok.mp accepted
  have found := orFail_eq_ok.mp found
  have region := demand_eq_ok.mp region
  have stored : payloadTensorStorage tensor = some tensor.dataBytes := by
    simpa using demand_eq_ok.mp stored
  have file := demand_eq_ok.mp file
  obtain ⟨last, _⟩ := u64Add_eq_some.mp (orFail_eq_ok.mp last)
  obtain ⟨added, bounded⟩ := u64Add_eq_some.mp (orFail_eq_ok.mp added)
  simp only [Bool.and_eq_true, decide_eq_true_eq] at region file
  cases accepted
  exact
    { placed := ⟨shard, found, payloadTensorStorage_eq_some stored, le_of_lt region.1,
        region.2, last ▸ file.1⟩
      described := ⟨⟨shard, found, rfl, rfl, rfl⟩, rfl⟩
      nonempty := Nat.add_lt_add_left region.1 _
      counted := added.symm
      bounded }

structure AllIndexed (snapshot : TensorSnapshot) (tensors : List NativeWeightInfo) (total : Nat)
    (ranges : List Range) (sum : Nat) : Prop where
  placed : ∀ tensor ∈ tensors, ∃ shard,
    snapshot.shardFind tensor.shardPath = some shard ∧ Placed shard tensor
  described : List.Forall₂ (RangeOf snapshot) tensors ranges
  nonempty : ∀ range ∈ ranges, range.absoluteBegin < range.absoluteEnd
  counted : sum = total + (ranges.map Range.byteLength).sum
  bounded : total ≤ u64Max → sum ≤ u64Max

variable {ranges : List Range}

theorem indexRanges_eq_ok (accepted : indexRanges snapshot tensors index total = .ok (ranges, sum)) :
    AllIndexed snapshot tensors total ranges sum := by
  induction tensors generalizing index total ranges sum with
  | nil =>
    cases accepted
    exact ⟨by simp, .nil, by simp, by simp, id⟩
  | cons tensor tensors induction => ?_
  obtain ⟨⟨range, middle⟩, first, accepted⟩ := bind_eq_ok.mp accepted
  obtain ⟨⟨rest, final⟩, later, accepted⟩ := bind_eq_ok.mp accepted
  cases accepted
  have first := indexRange_eq_ok first
  have later := induction later
  exact
    { placed := forall_mem_cons.mpr ⟨first.placed, later.placed⟩
      described := .cons first.described later.described
      nonempty := forall_mem_cons.mpr ⟨first.nonempty, later.nonempty⟩
      counted := by rw [later.counted, first.counted, map_cons, sum_cons, add_assoc]
      bounded := fun _ => later.bounded first.bounded }

theorem precedes_total (left right : NumberedRange) : left.Precedes right ∨ right.Precedes left := by
  unfold NumberedRange.Precedes
  omega

variable {left : NumberedRange}

theorem precedes_trans (first : left.Precedes middle)
    (second : middle.Precedes right) : left.Precedes right := by
  unfold NumberedRange.Precedes at *
  omega

instance : Std.Total NumberedRange.Precedes := ⟨precedes_total⟩

instance : IsTrans NumberedRange NumberedRange.Precedes := ⟨fun _ _ _ => precedes_trans⟩

/-- A range ends before the other begins, or lies in an earlier shard. -/
def NumberedRange.Before (left right : NumberedRange) : Prop :=
  right.absoluteBegin < right.absoluteEnd ∧ (left.shardIndex < right.shardIndex ∨
    left.shardIndex = right.shardIndex ∧ left.absoluteEnd ≤ right.absoluteBegin)

instance : IsTrans NumberedRange NumberedRange.Before where
  trans left middle right first second := by
    unfold NumberedRange.Before at *
    omega

theorem checkNeighbours_eq_ok {ranges : List NumberedRange}
    (sorted : ranges.Pairwise NumberedRange.Precedes)
    (nonempty : ∀ range ∈ ranges, range.absoluteBegin < range.absoluteEnd)
    (accepted : checkNeighbours ranges = .ok result) : ranges.IsChain NumberedRange.Before := by
  induction ranges with
  | nil => exact .nil
  | cons prior ranges induction => ?_
  cases ranges with
  | nil => exact .singleton prior
  | cons next rest => ?_
  obtain ⟨_, apart, accepted⟩ := bind_eq_ok.mp accepted
  have apart := demand_eq_ok.mp apart
  rw [pairwise_cons] at sorted
  have order : prior.Precedes next := sorted.1 next (mem_cons_self ..)
  refine .cons_cons ⟨nonempty next (by simp), ?_⟩
    (induction sorted.2 (fun range member => nonempty range (.tail _ member)) accepted)
  simp only [Bool.not_eq_true', Bool.and_eq_false_iff, beq_eq_false_iff_ne,
    decide_eq_false_iff_not] at apart
  unfold NumberedRange.Precedes at order
  omega

theorem NumberedRange.Before.apart (before : left.Before right) :
    left.toRange.Apart right.toRange := by
  intro same
  rcases before.2 with lower | ⟨_, ends⟩
  · omega
  · exact .inl ends

theorem Range.Apart.symm {left right : Range} (apart : left.Apart right) : right.Apart left :=
  fun same => (apart same.symm).symm

theorem map_numbered (ranges : List Range) :
    (numbered ranges).map NumberedRange.toRange = ranges := by
  rw [numbered, List.map_map]
  exact zipIdx_map_fst 0 ranges

theorem apart_of_checked (nonempty : ∀ range ∈ ranges, range.absoluteBegin < range.absoluteEnd)
    (accepted : checkNeighbours ((numbered ranges).insertionSort NumberedRange.Precedes) =
      .ok result) : ranges.Pairwise Range.Apart := by
  have sorted := pairwise_insertionSort NumberedRange.Precedes (numbered ranges)
  have chain := checkNeighbours_eq_ok sorted (fun range member => by
    apply nonempty
    rw [← map_numbered ranges]
    exact mem_map_of_mem ((mem_insertionSort _).mp member)) accepted
  have pairwise := isChain_iff_pairwise.mp chain
  rw [← map_numbered ranges, pairwise_map]
  exact (perm_insertionSort NumberedRange.Precedes _).pairwise_iff Range.Apart.symm |>.mp
    (pairwise.imp NumberedRange.Before.apart)

theorem buildIndexes_eq_ok (accepted : buildIndexes options host = .ok (shards, ranges, total)) :
    AllIndexed options.snapshot options.snapshot.rows 0 ranges total ∧
      ranges.Pairwise Range.Apart := by
  obtain ⟨indexed, _, accepted⟩ := bind_eq_ok.mp accepted
  replace accepted := behind accepted
  obtain ⟨⟨all, sum⟩, described, accepted⟩ := bind_eq_ok.mp accepted
  obtain ⟨_, checked, accepted⟩ := bind_eq_ok.mp accepted
  cases accepted
  have described := indexRanges_eq_ok described
  exact ⟨described, apart_of_checked described.nonempty checked⟩

theorem exists_range_of_mem (described : List.Forall₂ (RangeOf snapshot) tensors ranges)
    (member : tensor ∈ tensors) : ∃ range ∈ ranges, RangeOf snapshot tensor range := by
  induction described with
  | nil => cases member
  | cons first _ induction => ?_
  rcases mem_cons.mp member with rfl | member
  · exact ⟨_, mem_cons_self .., first⟩
  · grind

theorem rows_disjoint (described : List.Forall₂ (RangeOf snapshot) tensors ranges)
    (apart : ranges.Pairwise Range.Apart) :
    tensors.Pairwise fun left right => left.shardPath = right.shardPath →
      left.dataEnd ≤ right.dataStart ∨ right.dataEnd ≤ left.dataStart := by
  induction described with
  | nil => exact .nil
  | @cons tensor range tensors ranges first later induction =>
    obtain ⟨ahead, apart⟩ := pairwise_cons.mp apart
    refine .cons ?_ (induction apart)
    intro other member same
    obtain ⟨otherRange, listed, second⟩ := exists_range_of_mem later member
    obtain ⟨shard, found, place, starts, ends⟩ := first.shard
    obtain ⟨otherShard, otherFound, otherPlace, otherStarts, otherEnds⟩ := second.shard
    have equal : shard = otherShard := by
      rw [same, otherFound] at found
      exact (Option.some.inj found).symm
    have apart := ahead otherRange listed (by rw [place, otherPlace, equal])
    rw [starts, ends, equal] at apart
    omega

theorem AllIndexed.catalogued (indexed : AllIndexed snapshot snapshot.rows 0 ranges total)
    (apart : ranges.Pairwise Range.Apart) : Catalogued snapshot where
  placed := indexed.placed
  disjoint := rows_disjoint indexed.described apart
  total := by
    have same : snapshot.rows.map NativeWeightInfo.dataBytes = ranges.map Range.byteLength := by
      rw [← forall₂_eq_eq_eq, forall₂_map_left_iff, forall₂_map_right_iff]
      exact indexed.described.imp fun _ _ range => range.length.symm
    have bounded := indexed.bounded (Nat.zero_le _)
    rwa [same, ← zero_add (List.sum _), ← indexed.counted]

/-- The ranges of a session are given ones but for their trust. -/
def Retrusted (ranges : List Range) (session : Session) : Prop :=
  ∃ mark : Range → Range, (∀ range, ∃ trust, mark range = { range with trustClass := trust }) ∧
    session.ranges = ranges.map mark

theorem AllIndexed.describes
    (indexed : AllIndexed snapshot snapshot.rows 0 ranges session.logicalTensorBytes)
    (apart : ranges.Pairwise Range.Apart) (retrusted : Retrusted ranges session) :
    Describes snapshot session := by
  obtain ⟨mark, marks, kept⟩ := retrusted
  constructor
  · rw [kept, forall₂_map_right_iff]
    apply indexed.described.imp
    intro tensor range described
    obtain ⟨trust, marked⟩ := marks range
    rw [marked]
    exact ⟨described.shard, described.length⟩
  · rw [kept, pairwise_map]
    apply apart.imp
    intro left right apart
    obtain ⟨_, markedLeft⟩ := marks left
    obtain ⟨_, markedRight⟩ := marks right
    rw [markedLeft, markedRight]
    exact apart
  · have lengths : Range.byteLength ∘ mark = Range.byteLength := by
      funext range
      obtain ⟨_, marked⟩ := marks range
      rw [Function.comp_apply, marked]
      rfl
    rw [kept, List.map_map, lengths, indexed.counted, zero_add]

section

variable [Sha256Hex]

theorem identityCompute_eq_ok (accepted : identityCompute session = (.ok (), computed)) :
    computed.logicalTensorBytes = session.logicalTensorBytes ∧
      Retrusted session.ranges computed := by
  rw [identityCompute] at accepted
  split at accepted
  · cases accepted
  split at accepted
  · cases accepted
  dsimp only at accepted
  split at accepted
  · cases accepted
  · cases accepted
    exact ⟨rfl, _, fun _ => ⟨_, rfl⟩, rfl⟩

theorem restorePublishedTrust_eq_ok
    (accepted : restorePublishedTrust verification session = .ok restored) :
    restored.logicalTensorBytes = session.logicalTensorBytes ∧
      Retrusted session.ranges restored := by
  rw [restorePublishedTrust] at accepted
  split at accepted
  · cases accepted
    exact ⟨rfl, id, fun range => ⟨range.trustClass, rfl⟩, (map_id _).symm⟩
  replace accepted := behind (behind accepted)
  generalize computing : identityCompute _ = step at accepted
  obtain ⟨outcome, computed⟩ := step
  cases outcome with
  | error failure => cases accepted
  | ok => ?_
  cases accepted
  obtain ⟨counted, retrusted⟩ := identityCompute_eq_ok computing
  exact ⟨counted, retrusted⟩

theorem sessionOpen_eq_ok (accepted : sessionOpen options host = .ok session) :
    ∃ shards ranges, buildIndexes options host = .ok (shards, ranges, session.logicalTensorBytes) ∧
      Retrusted ranges session := by
  replace accepted := behind (behind (behind accepted))
  replace accepted := behind accepted
  obtain ⟨⟨shards, ranges, total⟩, built, accepted⟩ := bind_eq_ok.mp accepted
  refine ⟨shards, ranges, ?_⟩
  dsimp only at accepted
  split at accepted
  · cases accepted
    exact ⟨built, _, fun _ => ⟨_, rfl⟩, rfl⟩
  · obtain ⟨counted, retrusted⟩ := restorePublishedTrust_eq_ok accepted
    rw [counted]
    exact ⟨built, retrusted⟩

/-- An open session describes a catalogue of disjoint exact ranges, and no other catalogue is
opened. -/
theorem sessionOpen_catalogued (options : OpenOptions) (host : Host) :
    (∀ session, sessionOpen options host = .ok session →
        Catalogued options.snapshot ∧ Describes options.snapshot session) ∧
      (¬ Catalogued options.snapshot → ∃ failure, sessionOpen options host = .error failure) := by
  have opened : ∀ session, sessionOpen options host = .ok session →
      Catalogued options.snapshot ∧ Describes options.snapshot session := by
    intro session accepted
    obtain ⟨shards, ranges, built, retrusted⟩ := sessionOpen_eq_ok accepted
    obtain ⟨indexed, apart⟩ := buildIndexes_eq_ok built
    exact ⟨indexed.catalogued apart, indexed.describes apart retrusted⟩
  refine ⟨opened, ?_⟩
  intro other
  cases accepted : sessionOpen options host with
  | error failure => exact ⟨failure, rfl⟩
  | ok session => exact absurd (opened session accepted).1 other

end

def pairSnapshot : TensorSnapshot where
  rows := [⟨label "w", label "a", .f16, [2], 0, 4⟩, ⟨label "x", label "a", .fp4, [2, 4], 4, 8⟩]
  shards := [⟨0, label "a", 11, 3, 8⟩]
  identity := 7

def pairBudget : Budget := ⟨1, 2, 2, 1, 1, 4096, 4096, 4096, true⟩

def pairOptions : OpenOptions where
  snapshot := pairSnapshot
  budget := pairBudget
  authority := .verified ⟨label "t", label "f", label "r", label "v"⟩
    ⟨true, true, 1, [], label "r", label "v", label "t", 7, false, label "", label "", 0, 0, 0⟩

def pairIdentity : FileIdentity := ⟨1, 2, 11, (0, 0), (0, 0)⟩

def pairHost : Host where
  root := .opened none true
  rootLocked := true
  shard _ := .opened (some ⟨true, pairIdentity⟩) true
  payloadDigest _ := .ok none

def pairStat : FileStat := ⟨true, pairIdentity⟩

def pairSession : Session :=
  match @sessionOpen Provider.zeroDigest pairOptions pairHost with
  | .ok session => session
  | .error _ => indexedSession pairOptions [] [] 0

/-- Two tensors of different types open. -/
theorem sessionOpen_catalogued_pair : ∃ session,
    @sessionOpen Provider.zeroDigest pairOptions pairHost = .ok session ∧
      Catalogued pairSnapshot ∧ Describes pairSnapshot session := by
  obtain ⟨session, opened⟩ : ∃ session,
      @sessionOpen Provider.zeroDigest pairOptions pairHost = .ok session :=
    exists_of_isOk (by decide +kernel)
  exact ⟨session, opened,
    (@sessionOpen_catalogued Provider.zeroDigest pairOptions pairHost).1 session opened⟩

end Yvex.Source
