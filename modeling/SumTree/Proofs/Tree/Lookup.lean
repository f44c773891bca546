import SumTree.Proofs.Partition
import SumTree.Proofs.Tree.Nesting

/-!
# Entries by their position

An aggregate tree finds an entry by its position in the whole input: in which mini-tree it is, and where
among the entries that this mini-tree carries. The search runs through the mini-trees and takes off
what each of them carries, so that it inverts the count of the entries in front of a place
(`locateFrom_eq_some_iff`); a mini-tree without entries is passed over. Everything else is read off
that inverse: there is one place for each position, in the order of the positions, and it holds the
entry of that position among all entries (`locate_inverts_position`).

For the trees of a partition the carried entries are the input (`entry_of_build`).

## Main Definitions

* `AggregateTree.carried` — the entries that mini-trees carry, one after the other.
* `AggregateTree.IsPlace` — a mini-tree and a position among its entries.
* `AggregateTree.position` — the number of entries in front of a place.
-/

namespace SumTree

namespace AggregateTree

/-- The entries that some mini-trees carry, one after the other. -/
def carried (trees : List MiniTree) : List Entry :=
  (trees.map MiniTree.entries).flatten

/-- The position of a mini-tree, and one among the entries that it carries. -/
def IsPlace (trees : List MiniTree) (place : Nat × Nat) : Prop :=
  ∃ t, trees[place.1]? = some t ∧ place.2 < t.entries.length

/-- The number of entries in front of a place: those of all earlier mini-trees, and the earlier ones of
its own. -/
def position (trees : List MiniTree) (place : Nat × Nat) : Nat :=
  ((trees.take place.1).map fun t => t.entries.length).sum + place.2

section

variable {trees rest : List MiniTree} {t : MiniTree} {chunk offset : Nat}

theorem not_isPlace_nil (place : Nat × Nat) : ¬ IsPlace [] place := by
  rintro ⟨t, ht, -⟩
  cases ht

theorem isPlace_cons_zero : IsPlace (t :: rest) (0, offset) ↔ offset < t.entries.length := by
  constructor
  · rintro ⟨found, ⟨⟩, h⟩
    exact h
  · exact fun h => ⟨t, rfl, h⟩

theorem isPlace_cons_succ :
    IsPlace (t :: rest) (chunk + 1, offset) ↔ IsPlace rest (chunk, offset) :=
  Iff.rfl

theorem position_cons_zero : position (t :: rest) (0, offset) = offset :=
  Nat.zero_add offset

theorem position_cons_succ :
    position (t :: rest) (chunk + 1, offset) = t.entries.length + position rest (chunk, offset) := by
  rw [position, position, List.take_succ_cons, List.map_cons, List.sum_cons, Nat.add_assoc]

/-! ### Places and positions -/

/-- Every position is the number of entries in front of some place. -/
theorem exists_place {index : Nat} (h : index < (carried trees).length) :
    ∃ place, IsPlace trees place ∧ position trees place = index := by
  induction trees generalizing index with
  | nil => exact absurd h (Nat.not_lt_zero index)
  | cons t rest ih =>
      by_cases hhere : index < t.entries.length
      · exact ⟨(0, index), isPlace_cons_zero.mpr hhere, position_cons_zero⟩
      · rw [carried, List.map_cons, List.flatten_cons, List.length_append] at h
        have hrest : index - t.entries.length < (carried rest).length := by
          rw [carried]
          omega
        obtain ⟨⟨chunk, offset⟩, hplace, hposition⟩ := ih hrest
        refine ⟨(chunk + 1, offset), isPlace_cons_succ.mpr hplace, ?_⟩
        rw [position_cons_succ]
        omega

/-- The entry at a place is the one with that many entries in front of it. -/
theorem getElem?_position (ht : trees[chunk]? = some t) (hoffset : offset < t.entries.length) :
    (carried trees)[position trees (chunk, offset)]? = some t.entries[offset] := by
  induction trees generalizing chunk with
  | nil => cases ht
  | cons first rest ih =>
      rw [carried, List.map_cons, List.flatten_cons]
      cases chunk with
      | zero =>
          cases ht
          rw [position_cons_zero, List.getElem?_append_left hoffset, List.getElem?_eq_getElem hoffset]
      | succ chunk =>
          rw [position_cons_succ, List.getElem?_append_right (Nat.le_add_right _ _),
            Nat.add_sub_cancel_left]
          exact ih ht

theorem position_lt_length {place : Nat × Nat} (h : IsPlace trees place) :
    position trees place < (carried trees).length := by
  obtain ⟨t, ht, hoffset⟩ := h
  exact (List.getElem?_eq_some_iff.mp (getElem?_position ht hoffset)).1

/-- There are more entries in front of a later place. -/
theorem position_lt_position {place later : Nat × Nat} (h : IsPlace trees place)
    (hlater : toLex place < toLex later) : position trees place < position trees later := by
  obtain ⟨chunk, offset⟩ := place
  obtain ⟨chunk', offset'⟩ := later
  rw [Prod.Lex.toLex_lt_toLex] at hlater
  induction trees generalizing chunk chunk' with
  | nil => exact absurd h (not_isPlace_nil _)
  | cons t rest ih =>
      cases chunk with
      | zero =>
          have hoffset := isPlace_cons_zero.mp h
          cases chunk' with
          | zero =>
              rw [position_cons_zero, position_cons_zero]
              omega
          | succ chunk' =>
              rw [position_cons_zero, position_cons_succ]
              omega
      | succ chunk =>
          cases chunk' with
          | zero => omega
          | succ chunk' =>
              have hrest := ih chunk (isPlace_cons_succ.mp h) chunk' (by omega)
              rw [position_cons_succ, position_cons_succ]
              omega

/-- Places come in the order of their positions. -/
theorem position_lt_position_iff {place place' : Nat × Nat} (h : IsPlace trees place)
    (h' : IsPlace trees place') :
    position trees place < position trees place' ↔ toLex place < toLex place' := by
  refine ⟨fun hlt => ?_, position_lt_position h⟩
  by_contra hnot
  rcases eq_or_lt_of_le (not_lt.mp hnot) with heq | hbefore
  · rw [toLex_inj.mp heq] at hlt
    exact absurd hlt (Nat.lt_irrefl _)
  · exact absurd (position_lt_position h' hbefore) (Nat.lt_asymm hlt)

/-! ### The search -/

/-- The search finds the place that has as many entries in front of it as are looked for. -/
theorem locateFrom_eq_some_iff {first index : Nat} {place : Nat × Nat} :
    locateFrom first index trees = some place ↔
      ∃ chunk offset, place = (first + chunk, offset) ∧ IsPlace trees (chunk, offset) ∧
        position trees (chunk, offset) = index := by
  induction trees generalizing first index with
  | nil =>
      refine iff_of_false (by rintro ⟨⟩) ?_
      rintro ⟨chunk, offset, -, hplace, -⟩
      exact not_isPlace_nil _ hplace
  | cons t rest ih =>
      rw [locateFrom]
      by_cases hhere : index < t.entries.length
      · rw [if_pos (Int.ofNat_lt.mpr hhere), Int.toNat_natCast]
        constructor
        · rintro ⟨⟩
          exact ⟨0, index, rfl, isPlace_cons_zero.mpr hhere, position_cons_zero⟩
        · rintro ⟨chunk, offset, rfl, hplace, hposition⟩
          cases chunk with
          | zero =>
              rw [position_cons_zero] at hposition
              rw [hposition, Nat.add_zero]
          | succ chunk =>
              rw [position_cons_succ] at hposition
              omega
      -- What the first mini-tree carries is taken off the index, and stands in front of every later place.
      · have hle := Nat.le_of_not_lt hhere
        rw [if_neg (fun h => hhere (Int.ofNat_lt.mp h)), ← Int.ofNat_sub hle, ih]
        constructor
        · rintro ⟨chunk, offset, rfl, hplace, hposition⟩
          refine ⟨chunk + 1, offset, ?_, isPlace_cons_succ.mpr hplace, ?_⟩
          · rw [Nat.add_assoc, Nat.add_comm 1]
          · rw [position_cons_succ]
            omega
        · rintro ⟨chunk, offset, rfl, hplace, hposition⟩
          cases chunk with
          | zero =>
              rw [position_cons_zero] at hposition
              exact absurd (hposition ▸ isPlace_cons_zero.mp hplace) hhere
          | succ chunk =>
              rw [position_cons_succ] at hposition
              refine ⟨chunk, offset, ?_, isPlace_cons_succ.mp hplace, ?_⟩
              · rw [Nat.add_assoc, Nat.add_comm 1]
              · omega

end

section

variable {t : AggregateTree} {index : Int} {place : Nat × Nat}

theorem locate_eq_ok_iff : t.locate index = .ok place ↔
    IsPlace t.miniTrees place ∧ (position t.miniTrees place : Int) = index := by
  rw [locate]
  by_cases hnegative : index < 0
  · rw [if_pos hnegative]
    refine iff_of_false (by rintro ⟨⟩) ?_
    rintro ⟨-, rfl⟩
    exact absurd hnegative (not_lt.mpr (Int.natCast_nonneg _))
  · lift index to Nat using not_lt.mp hnegative
    have hfound := @locateFrom_eq_some_iff t.miniTrees 0 index
    simp only [Nat.zero_add] at hfound
    rw [if_neg hnegative, Int.ofNat_inj]
    cases h : locateFrom 0 index t.miniTrees with
    | some found =>
        obtain ⟨chunk, offset, rfl, hplace, hposition⟩ := hfound.mp h
        constructor
        · rintro ⟨⟩
          exact ⟨hplace, hposition⟩
        · rintro ⟨hplace', hposition'⟩
          have h' := hfound.mpr ⟨place.1, place.2, rfl, hplace', hposition'⟩
          rw [h] at h'
          cases h'
          rfl
    | none =>
        refine iff_of_false (by rintro ⟨⟩) ?_
        rintro ⟨hplace, hposition⟩
        have h' := hfound.mpr ⟨place.1, place.2, rfl, hplace, hposition⟩
        rw [h] at h'
        cases h'

/-- A position below the number of carried entries has one place, and the search finds it. -/
theorem exists_locate_eq {i : Nat} (hi : i < (carried t.miniTrees).length) :
    ∃ place, t.locate i = .ok place ∧
      ∀ other, (IsPlace t.miniTrees other ∧ position t.miniTrees other = i) ↔ other = place := by
  obtain ⟨place, hplace, hposition⟩ := exists_place hi
  have hlocate : t.locate i = .ok place :=
    locate_eq_ok_iff.mpr ⟨hplace, congrArg Int.ofNat hposition⟩
  refine ⟨place, hlocate, fun other => ⟨?_, ?_⟩⟩
  · rintro ⟨hother, hposition'⟩
    have hlocate' : t.locate i = .ok other :=
      locate_eq_ok_iff.mpr ⟨hother, congrArg Int.ofNat hposition'⟩
    rw [hlocate] at hlocate'
    exact (Except.ok.inj hlocate').symm
  · rintro rfl
    exact ⟨hplace, hposition⟩

/-- A place is found at one position. -/
theorem exists_index_of_isPlace (h : IsPlace t.miniTrees place) :
    ∃ i < (carried t.miniTrees).length, ∀ index, t.locate index = .ok place ↔ index = (i : Int) := by
  refine ⟨position t.miniTrees place, position_lt_length h, fun index => ?_⟩
  rw [locate_eq_ok_iff, and_iff_right h, eq_comm]

/-- Places come in the order of the positions at which they are found. -/
theorem lt_iff_of_locate {index' : Int} {place' : Nat × Nat} (h : t.locate index = .ok place)
    (h' : t.locate index' = .ok place') : index < index' ↔ toLex place < toLex place' := by
  obtain ⟨hplace, rfl⟩ := locate_eq_ok_iff.mp h
  obtain ⟨hplace', rfl⟩ := locate_eq_ok_iff.mp h'
  rw [Int.ofNat_lt, position_lt_position_iff hplace hplace']

theorem locate_of_negative (hfits : Decimal.fits index = true) (h : index < 0) :
    t.locate index = .error (.negative index) := by
  rw [locate, if_pos h, hfits]
  rfl

theorem locate_of_length_le (hfits : Decimal.fits index = true)
    (h : ((carried t.miniTrees).length : Int) ≤ index) :
    t.locate index = .error (.outOfRange index) := by
  have hnonneg : ¬ index < 0 := by omega
  rw [locate, if_neg hnonneg, hfits]
  lift index to Nat using not_lt.mp hnonneg
  cases hfound : locateFrom 0 index t.miniTrees with
  | none => rfl
  | some found =>
      obtain ⟨chunk, offset, -, hplace, rfl⟩ := locateFrom_eq_some_iff.mp hfound
      exact absurd (Int.ofNat_lt.mpr (position_lt_length hplace)) (not_lt.mpr h)

theorem entry_of_error {fault : PositionFault} (h : t.locate index = .error fault) :
    t.entry index = .error fault := by
  rw [entry, h]
  rfl

/-- The entry at a position is the one that has it among all entries. -/
theorem entry_eq_ok {i : Nat} (hi : i < (carried t.miniTrees).length) :
    t.entry i = .ok (carried t.miniTrees)[i] := by
  obtain ⟨⟨chunk, offset⟩, hplace, hposition⟩ := exists_place hi
  have hlocate : t.locate i = .ok (chunk, offset) :=
    locate_eq_ok_iff.mpr ⟨hplace, congrArg Int.ofNat hposition⟩
  obtain ⟨m, hm, hoffset⟩ := hplace
  have hget := getElem?_position hm hoffset
  rw [hposition, List.getElem?_eq_getElem hi, Option.some.injEq] at hget
  rw [entry, hlocate, hget]
  show Except.ok (((t.miniTrees[chunk]?.map MiniTree.entries).getD [])[offset]?.getD default) = _
  rw [hm, Option.map_some, Option.getD_some, List.getElem?_eq_getElem hoffset, Option.getD_some]

end

end AggregateTree

/-! ### The trees of a partition -/

section

variable {hasher : Hasher} {policy : OddPolicy} {width : Nat}

/-- Mini-trees carry the chunks that they are built over. -/
theorem map_entries_of_mapM_build {chunks : List (List Entry)} {trees : List MiniTree}
    (h : chunks.mapM (MiniTree.build hasher policy) = .ok trees) :
    trees.map MiniTree.entries = chunks := by
  have hall := mapM_eq_ok_iff.mp h
  clear h
  induction hall with
  | nil => rfl
  | cons hbuilt _ ih =>
      obtain ⟨width, leaves, hover⟩ := MiniTree.exists_over_of_build hbuilt
      rw [List.map_cons, hover.entries, ih]

/-- After a partition, and building over its chunks, the input is found entry by entry. -/
theorem AggregateTree.entry_of_build {a : Aggregator} {entries : List Entry} {executors : Int}
    {chunks : List (List Entry)} {trees : List MiniTree} {t : AggregateTree}
    (hchunks : Partition.chunks entries executors = .ok chunks)
    (htrees : chunks.mapM (MiniTree.build hasher policy) = .ok trees)
    (h : a.buildFromTrees trees = .ok t) :
    ∀ (i : Nat) (hi : i < entries.length), t.entry i = .ok entries[i] := by
  have hcarried : carried t.miniTrees = entries := by
    rw [carried, (Aggregator.over_of_buildFromTrees h).miniTrees, map_entries_of_mapM_build htrees,
      Partition.flatten_of_chunks hchunks]
  subst hcarried
  intro i hi
  exact entry_eq_ok hi

/-- There is an aggregate tree over mini-trees of one width, unless its root is refused. -/
theorem Aggregator.exists_buildFromTrees_eq {a : Aggregator} (hcombine : a.hasher.Combines)
    {trees : List MiniTree} (hne : trees ≠ []) (hroots : ∀ t ∈ trees, t.root.width = width)
    (hentries : ∀ t ∈ trees, ∀ e ∈ t.entries, e.width = width) :
    ∃ t : AggregateTree, a.buildFromTrees trees = (a.checkRange t.root).map fun _ => t := by
  have huniform : Node.Uniform width (trees.map MiniTree.root) := by
    intro n hn
    obtain ⟨t, ht, rfl⟩ := List.mem_map.mp hn
    exact hroots t ht
  obtain ⟨levels, hlevels, -⟩ := exists_tower hcombine a.policy (by simpa using hne) huniform
  refine ⟨⟨rootOf levels, levels, treeDepth trees.length, trees⟩, ?_⟩
  rw [buildFromTrees_eq hne hroots hentries, hlevels]
  dsimp only
  cases a.checkRange (rootOf levels) with
  | error failure => rfl
  | ok _ => rfl

/-- Hashers without failures have trees over all chunks of entries of one width, and one over their
roots. -/
theorem Aggregator.exists_trees_of_total (hhasher : hasher.Total) (policy : OddPolicy)
    {a : Aggregator} (hcombine : a.hasher.Combines) {chunks : List (List Entry)} (hne : chunks ≠ [])
    (hchunks : ∀ chunk ∈ chunks, chunk ≠ [])
    (huniform : ∀ chunk ∈ chunks, ∀ e ∈ chunk, e.width = width) :
    ∃ trees, chunks.mapM (MiniTree.build hasher policy) = .ok trees ∧
      ∃ t : AggregateTree, a.buildFromTrees trees = (a.checkRange t.root).map fun _ => t := by
  obtain ⟨leaf, hleaf⟩ := hhasher.exists_leaf
  have hbuilt : ∀ chunk ∈ chunks, ∃ levels,
      MiniTree.build hasher policy chunk = .ok (.ofLevels chunk levels) ∧
        Tower hasher policy width (chunk.map leaf) levels := by
    intro chunk hchunk
    exact MiniTree.exists_tower_of_total hhasher policy hleaf (hchunks chunk hchunk)
      (huniform chunk hchunk)
  choose! levels hlevels using hbuilt
  refine ⟨chunks.map fun chunk => .ofLevels chunk (levels chunk),
    mapM_eq_ok_map fun chunk hchunk => (hlevels chunk hchunk).1, ?_⟩
  have hroots : ∀ t ∈ chunks.map fun chunk => MiniTree.ofLevels chunk (levels chunk),
      t.root.width = width := by
    intro t ht
    obtain ⟨chunk, hchunk, rfl⟩ := List.mem_map.mp ht
    have htower := (hlevels chunk hchunk).2
    exact htower.uniform _ htower.rootOf_mem _ (List.mem_singleton_self _)
  refine exists_buildFromTrees_eq hcombine (by simpa using hne) hroots ?_
  intro t ht e he
  obtain ⟨chunk, hchunk, rfl⟩ := List.mem_map.mp ht
  exact huniform chunk hchunk e he

end

/-- The look-up by position inverts the concatenation of what the mini-trees carry. A position below the
number of carried entries has one place, with as many entries in front of it, and the entry there is
the one of that position among all of them; every place has one position, in the order of places; all
other positions are refused. After a partition, and building over its chunks, this finds the input. -/
theorem AggregateTree.locate_inverts_position :
    (∀ t : AggregateTree,
      (∀ (i : Nat) (hi : i < (carried t.miniTrees).length), ∃ place,
        t.locate i = .ok place ∧
        (∀ other, (IsPlace t.miniTrees other ∧ position t.miniTrees other = i) ↔ other = place) ∧
        t.entry i = .ok (carried t.miniTrees)[i]) ∧
      (∀ place, IsPlace t.miniTrees place → ∃ i < (carried t.miniTrees).length,
        ∀ index, t.locate index = .ok place ↔ index = (i : Int)) ∧
      (∀ index index' place place', t.locate index = .ok place → t.locate index' = .ok place' →
        (index < index' ↔ toLex place < toLex place')) ∧
      ∀ index, Decimal.fits index = true →
        (index < 0 → t.locate index = .error (.negative index) ∧
          t.entry index = .error (.negative index)) ∧
        (((carried t.miniTrees).length : Int) ≤ index → t.locate index = .error (.outOfRange index) ∧
          t.entry index = .error (.outOfRange index))) ∧
    ∀ (hasher : Hasher) (policy : OddPolicy) (a : Aggregator) (entries : List Entry) (executors : Int),
      1 ≤ executors → entries ≠ [] → (∃ width, Partition.Uniform width entries) →
      ∃ chunks, Partition.chunks entries executors = .ok chunks ∧
        (∀ trees t, chunks.mapM (MiniTree.build hasher policy) = .ok trees →
          a.buildFromTrees trees = .ok t →
          ∀ (i : Nat) (hi : i < entries.length), t.entry i = .ok entries[i]) ∧
        (hasher.Total → a.hasher.Combines →
          ∃ trees, chunks.mapM (MiniTree.build hasher policy) = .ok trees ∧
            ∃ t : AggregateTree, a.buildFromTrees trees = (a.checkRange t.root).map fun _ => t) := by
  constructor
  · intro t
    refine ⟨?_, fun place => exists_index_of_isPlace, fun _ _ _ _ => lt_iff_of_locate, ?_⟩
    · intro i hi
      obtain ⟨place, hlocate, hplace⟩ := exists_locate_eq hi
      exact ⟨place, hlocate, hplace, entry_eq_ok hi⟩
    · intro index hfits
      refine ⟨fun hnegative => ?_, fun hlength => ?_⟩
      · have hlocate := @locate_of_negative t index hfits hnegative
        exact ⟨hlocate, entry_of_error hlocate⟩
      · have hlocate := locate_of_length_le hfits hlength
        exact ⟨hlocate, entry_of_error hlocate⟩
  · intro hasher policy a entries executors hexecutors hne ⟨width, huniform⟩
    obtain ⟨chunks, hchunks⟩ := Partition.exists_chunks_iff.mpr ⟨hexecutors, hne, width, huniform⟩
    have hflatten := Partition.flatten_of_chunks hchunks
    refine ⟨chunks, hchunks, fun trees t htrees h => entry_of_build hchunks htrees h, ?_⟩
    intro hhasher hcombine
    apply Aggregator.exists_trees_of_total hhasher policy hcombine
    · rintro rfl
      exact hne hflatten.symm
    · exact fun chunk hchunk => Partition.ne_nil_of_mem_chunks hchunks hchunk
    · intro chunk hchunk e he
      rw [← hflatten] at huniform
      exact huniform e (List.mem_flatten_of_mem hchunk he)

namespace Sample

/-- Three mini-trees, of which the second one carries no entries. -/
def gapped : List MiniTree :=
  [⟨⟨[1], [3]⟩, [[⟨[1], [3]⟩]], 1, false, [⟨"a", [1]⟩, ⟨"b", [2]⟩]⟩,
    ⟨⟨[2], [0]⟩, [[⟨[2], [0]⟩]], 0, false, []⟩,
    ⟨⟨[3], [3]⟩, [[⟨[3], [3]⟩]], 0, false, [⟨"c", [3]⟩]⟩]

end Sample

theorem AggregateTree.locate_inverts_position_gapped :
    (let t : AggregateTree := ⟨⟨[4], [6]⟩, [], 2, Sample.gapped⟩
    t.locate 2 = .ok (2, 0) ∧ t.entry 2 = .ok ⟨"c", [3]⟩ ∧ t.entry 3 = .error (.outOfRange 3)) ∧
    ∃ chunks trees t, Partition.chunks Sample.five 3 = .ok chunks ∧
      chunks.mapM (MiniTree.build Sample.listing .zeroPad) = .ok trees ∧
      (Aggregator.mk Sample.listing .carryUp none).buildFromTrees trees = .ok t ∧
      t.entry 4 = .ok ⟨"e", [5]⟩ := by
  constructor
  · intro t
    obtain ⟨hinside, -, -, houtside⟩ := locate_inverts_position.1 t
    obtain ⟨place, hlocate, hplace, hentry⟩ := hinside 2 (by decide)
    have hthird : (2, 0) = place := (hplace (2, 0)).mp ⟨⟨_, rfl, by decide⟩, rfl⟩
    have hbeyond := (houtside 3 (by decide +kernel)).2 (by decide)
    exact ⟨hthird ▸ hlocate, hentry, hbeyond.2⟩
  · obtain ⟨chunks, hchunks, hentry, hbuilt⟩ := locate_inverts_position.2 Sample.listing .zeroPad
      ⟨Sample.listing, .carryUp, none⟩ Sample.five 3 (by decide) (by decide)
      ⟨1, by unfold Partition.Uniform; decide⟩
    obtain ⟨trees, htrees, t, ht⟩ := hbuilt Sample.total_listing Sample.total_listing.combine
    exact ⟨chunks, trees, t, hchunks, htrees, ht, hentry trees t htrees ht 4 (by decide)⟩

end SumTree
