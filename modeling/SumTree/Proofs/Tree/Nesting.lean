import SumTree.Proofs.Tree.Aggregate
import SumTree.Proofs.Tree.MiniTree

/-!
# Nested trees

A tree over the roots of mini-trees is the upper part of one tree over all entries, node for node, when
the chunks have 2 ^ k entries each (`nested_eq_flat`). Where odd nodes are carried up the last chunk
may be shorter.

Pairing goes from the left, so a block with an even number of nodes is paired within itself
(`nextLevel_append`). A block of 2 ^ k nodes therefore climbs k levels on its own, whatever follows it
(`Climbs.append`), and a shorter block at the end is carried up once it is a single node. What remains
is that a tree is determined by any of its levels from there on (`Tower.drop`, `Tower.unique`).

## Main Definitions

* `Hasher.Total` — a hasher that never fails.
* `Climbs` — what a level becomes some levels further up.
* `Partition.FitsLevel` — chunks whose roots make up one level of the tree over all entries.
-/

namespace SumTree

/-- A hasher that never fails. -/
structure Hasher.Total (hasher : Hasher) : Prop where
  leaf : ∀ username balances, ∃ digest, hasher.leaf username balances = .ok digest
  combine : hasher.Combines

/-- What a level of nodes with `width` columns becomes a number of levels further up. -/
inductive Climbs (hasher : Hasher) (policy : OddPolicy) (width : Nat) :
    Nat → List Node → List Node → Prop
  | stay (level : List Node) : Climbs hasher policy width 0 level level
  | up {k : Nat} {lower parents upper : List Node}
    (hparents : nextLevel hasher policy width lower = .ok parents)
    (habove : Climbs hasher policy width k parents upper) :
    Climbs hasher policy width (k + 1) lower upper

section

variable {hasher : Hasher} {policy : OddPolicy} {width : Nat}

/-! ### Blocks of a level -/

/-- An even number of nodes is paired without the nodes behind them. -/
theorem nextLevel_append {front back parents parents' : List Node} (heven : front.length % 2 = 0)
    (hfront : nextLevel hasher policy width front = .ok parents)
    (hback : nextLevel hasher policy width back = .ok parents') :
    nextLevel hasher policy width (front ++ back) = .ok (parents ++ parents') := by
  fun_induction nextLevel hasher policy width front generalizing parents with
  | case1 =>
      cases hfront
      exact hback
  | case2 last => exact absurd heven (by simp)
  | case3 last => exact absurd heven (by simp)
  | case4 left right rest ih =>
      obtain ⟨parent, hparent, hfront⟩ := exists_of_bind_eq_ok hfront
      obtain ⟨others, hothers, hfront⟩ := exists_of_bind_eq_ok hfront
      cases hfront
      have hrest : rest.length % 2 = 0 := by
        simp only [List.length_cons] at heven
        omega
      have hjoined := ih hrest hothers
      show nextLevel hasher policy width (left :: right :: (rest ++ back)) = _
      rw [nextLevel, hparent, hjoined]
      rfl

theorem Climbs.trans {j k : Nat} {lower middle upper : List Node}
    (hlower : Climbs hasher policy width j lower middle)
    (hupper : Climbs hasher policy width k middle upper) :
    Climbs hasher policy width (k + j) lower upper := by
  induction hlower with
  | stay level => exact hupper
  | up hparents _ ih => exact .up hparents (ih hupper)

theorem Climbs.nil (k : Nat) : Climbs hasher policy width k [] [] := by
  induction k with
  | zero => exact .stay []
  | succ k ih => exact .up (nextLevel_nil hasher policy width) ih

/-- A single node is carried up any number of levels. -/
theorem Climbs.carried (k : Nat) (n : Node) : Climbs hasher .carryUp width k [n] [n] := by
  induction k with
  | zero => exact .stay [n]
  | succ k ih => exact .up (nextLevel_singleton_carryUp hasher width n) ih

/-- Nodes that fill whole blocks of 2 ^ k climb k levels without the nodes behind them. -/
theorem Climbs.append {k : Nat} {front back upper upper' : List Node}
    (hdvd : 2 ^ k ∣ front.length) (huniform : Node.Uniform width front)
    (hfront : Climbs hasher policy width k front upper)
    (hback : Climbs hasher policy width k back upper') :
    Climbs hasher policy width k (front ++ back) (upper ++ upper') := by
  induction k generalizing front back with
  | zero =>
      cases hfront
      cases hback
      exact .stay _
  | succ k ih =>
      cases hfront with
      | up hparents habove =>
          cases hback with
          | up hparents' habove' =>
              obtain ⟨blocks, hblocks⟩ := hdvd
              have hsize : front.length = 2 * (2 ^ k * blocks) := by
                rw [hblocks, Nat.pow_succ]
                ring
              obtain ⟨hlength, huniform', -⟩ := nextLevel_spec hparents huniform
              refine .up (nextLevel_append (by omega) hparents hparents') ?_
              refine ih ⟨blocks, ?_⟩ huniform' habove habove'
              rw [hlength, hsize]
              omega

/-- Blocks of 2 ^ k nodes, of which the last one may be shorter, climb k levels together as each of them
does alone. -/
theorem Climbs.flatten {k : Nat} {blocks : List (List Node)} {roots : List Node}
    (hclimbs : List.Forall₂ (fun block root => Climbs hasher policy width k block [root]) blocks roots)
    (hsize : ∀ block ∈ blocks.dropLast, block.length = 2 ^ k)
    (huniform : ∀ block ∈ blocks, Node.Uniform width block) :
    Climbs hasher policy width k blocks.flatten roots := by
  induction hclimbs with
  | nil => exact .nil k
  | @cons block root rest roots hblock hrest ih =>
      by_cases hlast : rest = []
      · subst hlast
        cases hrest
        rw [List.flatten_cons, List.flatten_nil, List.append_nil]
        exact hblock
      · have hdrop : (block :: rest).dropLast = block :: rest.dropLast :=
          List.dropLast_cons_of_ne_nil hlast
        rw [hdrop, List.forall_mem_cons] at hsize
        rw [List.forall_mem_cons] at huniform
        have habove := ih hsize.2 huniform.2
        rw [List.flatten_cons]
        exact Climbs.append (by rw [hsize.1]) huniform.1 hblock habove

/-! ### Levels of a tower -/

variable {leaves : List Node} {levels : List (List Node)}

/-- The levels of a tower are what its leaves become. -/
theorem Tower.getElem?_of_climbs (h : Tower hasher policy width leaves levels) {i k : Nat}
    {lower upper : List Node} (hlower : levels[i]? = some lower)
    (hclimbs : Climbs hasher policy width k lower upper) (hlength : i + k < levels.length) :
    levels[i + k]? = some upper := by
  induction hclimbs generalizing i with
  | stay level => exact hlower
  | @up k lower parents upper hparents _ ih =>
      have hnext : levels[i + 1]? = some levels[i + 1] := List.getElem?_eq_getElem (by omega)
      have heq := h.next i lower _ hlower hnext
      rw [hparents, Except.ok.injEq] at heq
      rw [← heq] at hnext
      rw [show i + (k + 1) = i + 1 + k by omega]
      exact ih hnext (by omega)

theorem Tower.climbs (h : Tower hasher policy width leaves levels) {k : Nat} {level : List Node}
    (hlevel : levels[k]? = some level) : Climbs hasher policy width k leaves level := by
  induction k generalizing level with
  | zero =>
      rw [h.first, Option.some.injEq] at hlevel
      rw [hlevel]
      exact .stay level
  | succ k ih =>
      obtain ⟨hk, -⟩ := List.getElem?_eq_some_iff.mp hlevel
      have hlower : levels[k]? = some levels[k] := List.getElem?_eq_getElem (by omega)
      have hstep : Climbs hasher policy width 1 levels[k] level :=
        .up (h.next k _ level hlower hlevel) (.stay level)
      rw [Nat.add_comm]
      exact (ih hlower).trans hstep

/-- The leaves of a tower become its root, as many levels further up as the tower is deep. -/
theorem Tower.climbs_root (h : Tower hasher policy width leaves levels) :
    Climbs hasher policy width (treeDepth leaves.length) leaves [rootOf levels] := by
  have htop : levels[treeDepth leaves.length]? = some [rootOf levels] := by
    rw [← h.getLast?_eq, List.getLast?_eq_getElem?, h.length, Nat.add_sub_cancel]
  exact h.climbs htop

/-- A level of a tower has a depth of its own, which is less by the height of the level. -/
theorem Tower.treeDepth_level (h : Tower hasher policy width leaves levels) {k : Nat}
    {level : List Node} (hlevel : levels[k]? = some level) :
    k + treeDepth level.length = treeDepth leaves.length := by
  induction k generalizing level with
  | zero =>
      rw [h.first, Option.some.injEq] at hlevel
      rw [hlevel, Nat.zero_add]
  | succ k ih =>
      obtain ⟨hk, -⟩ := List.getElem?_eq_some_iff.mp hlevel
      have hlower : levels[k]? = some levels[k] := List.getElem?_eq_getElem (by omega)
      have hdepth := ih hlower
      have htop := h.length
      -- There is a level above, so the one below is not the root alone.
      have hmany : 1 < levels[k].length := by
        by_contra hfew
        have hzero : treeDepth levels[k].length = 0 :=
          Nat.le_zero.mp ((treeDepth_le_iff _ 0).mpr (by simpa using hfew))
        omega
      have hsucc := treeDepth_eq_succ hmany
      rw [← (h.above hlower hlevel).length] at hsucc
      omega

/-- The levels of a tower from one of them on are a tower over that level. -/
theorem Tower.drop (h : Tower hasher policy width leaves levels) {k : Nat} {level : List Node}
    (hlevel : levels[k]? = some level) : Tower hasher policy width level (levels.drop k) := by
  obtain ⟨hk, -⟩ := List.getElem?_eq_some_iff.mp hlevel
  have hdepth := h.treeDepth_level hlevel
  refine ⟨?_, ?_, ?_, ?_, ?_⟩
  · rw [List.length_drop, h.length]
    omega
  · rw [List.getElem?_drop]
    exact hlevel
  · intro j lower upper hlower hupper
    rw [List.getElem?_drop] at hlower hupper
    exact h.next (k + j) lower upper hlower hupper
  · intro found hfound
    exact h.uniform found (List.mem_of_mem_drop hfound)
  · obtain ⟨root, hroot⟩ := h.last
    refine ⟨root, ?_⟩
    rw [List.getLast?_drop, if_neg (Nat.not_le.mpr hk)]
    exact hroot

theorem rootOf_drop {k : Nat} {level : List Node} (hlevel : levels[k]? = some level) :
    rootOf (levels.drop k) = rootOf levels := by
  obtain ⟨hk, -⟩ := List.getElem?_eq_some_iff.mp hlevel
  rw [rootOf, rootOf, List.getLastD_eq_getLast?, List.getLastD_eq_getLast?, List.getLast?_drop,
    if_neg (Nat.not_le.mpr hk)]

/-- There is one tower over given leaves. -/
theorem Tower.unique {levels' : List (List Node)} (h : Tower hasher policy width leaves levels)
    (h' : Tower hasher policy width leaves levels') : levels = levels' := by
  apply List.ext_getElem
  · rw [h.length, h'.length]
  · intro k hk hk'
    have hlevel' : levels'[k]? = some levels'[k] := List.getElem?_eq_getElem hk'
    have hsame := h.getElem?_of_climbs h.first (h'.climbs hlevel') (by omega)
    rw [Nat.zero_add, List.getElem?_eq_getElem hk, Option.some.injEq] at hsame
    exact hsame

end

/-! ### Chunks -/

/-- Chunks of 2 ^ k entries each. Where odd nodes are carried up the last chunk may have fewer, but at
least one. -/
def Partition.FitsLevel (policy : OddPolicy) (k : Nat) (chunks : List (List Entry)) : Prop :=
  (∀ chunk ∈ chunks, chunk.length = 2 ^ k) ∨
    policy = .carryUp ∧ ∃ front last, chunks = front ++ [last] ∧
      (∀ chunk ∈ front, chunk.length = 2 ^ k) ∧ 1 ≤ last.length ∧ last.length ≤ 2 ^ k

namespace Partition.FitsLevel

variable {policy : OddPolicy} {k : Nat} {chunks : List (List Entry)}

theorem length_of_mem_dropLast (h : FitsLevel policy k chunks) :
    ∀ chunk ∈ chunks.dropLast, chunk.length = 2 ^ k := by
  intro chunk hchunk
  rcases h with hfull | ⟨-, front, last, rfl, hfront, -⟩
  · exact hfull chunk (List.mem_of_mem_dropLast hchunk)
  · rw [List.dropLast_concat] at hchunk
    exact hfront chunk hchunk

/-- A chunk is full, or not larger and its root may be carried up. -/
theorem length_of_mem (h : FitsLevel policy k chunks) {chunk : List Entry} (hchunk : chunk ∈ chunks) :
    chunk ≠ [] ∧
      (chunk.length = 2 ^ k ∨ policy = .carryUp ∧ chunk.length ≤ 2 ^ k) := by
  have hfilled : ∀ entries : List Entry, entries.length = 2 ^ k → entries ≠ [] := by
    intro entries hlength hempty
    rw [hempty, List.length_nil] at hlength
    exact absurd hlength.symm (Nat.two_pow_pos k).ne'
  rcases h with hfull | ⟨hpolicy, front, last, rfl, hfront, hone, hle⟩
  · exact ⟨hfilled chunk (hfull chunk hchunk), .inl (hfull chunk hchunk)⟩
  · rcases List.mem_append.mp hchunk with hmem | hmem
    · exact ⟨hfilled chunk (hfront chunk hmem), .inl (hfront chunk hmem)⟩
    · rw [List.mem_singleton.mp hmem]
      exact ⟨List.length_pos_iff.mp hone, .inr ⟨hpolicy, hle⟩⟩

/-- Two chunks or more hold more entries than one full chunk. -/
theorem lt_length_flatten (h : FitsLevel policy k chunks) (hcount : 2 ≤ chunks.length) :
    2 ^ k < chunks.flatten.length := by
  obtain ⟨first, rest, rfl⟩ := List.exists_cons_of_length_pos (by omega : 0 < chunks.length)
  have hrest : rest ≠ [] := by
    rw [← List.length_pos_iff]
    simp only [List.length_cons] at hcount
    omega
  have hfirst : first.length = 2 ^ k := by
    apply h.length_of_mem_dropLast
    rw [List.dropLast_cons_of_ne_nil hrest]
    exact List.mem_cons_self
  obtain ⟨second, hsecond⟩ := List.exists_mem_of_ne_nil rest hrest
  have hpos : 1 ≤ second.length :=
    List.length_pos_iff.mpr (h.length_of_mem (List.mem_cons_of_mem first hsecond)).1
  have hle : second.length ≤ rest.flatten.length :=
    (List.sublist_flatten_of_mem hsecond).length_le
  rw [List.flatten_cons, List.length_append, hfirst]
  omega

end Partition.FitsLevel

section

variable {hasher : Hasher} {policy : OddPolicy} {width : Nat}

/-- The leaf that a hasher without failures has for each entry. -/
theorem Hasher.Total.exists_leaf (h : hasher.Total) :
    ∃ leaf : Entry → Node, ∀ e, leafOf hasher e = .ok (leaf e) ∧ (leaf e).width = e.width := by
  have hleaf : ∀ e : Entry, ∃ leaf, leafOf hasher e = .ok leaf ∧ leaf.width = e.width := by
    intro e
    obtain ⟨digest, hdigest⟩ := h.leaf e.username e.amounts
    refine ⟨⟨digest, e.amounts⟩, ?_, List.length_map _⟩
    rw [leafOf, hdigest]
    rfl
  choose leaf hleaf using hleaf
  exact ⟨leaf, hleaf⟩

/-- The mini-tree over some entries whose levels are given. -/
def MiniTree.ofLevels (entries : List Entry) (levels : List (List Node)) : MiniTree :=
  ⟨rootOf levels, levels, treeDepth entries.length, false, entries⟩

/-- A hasher without failures has a mini-tree over all entries of one width. -/
theorem MiniTree.exists_tower_of_total (hhasher : hasher.Total) (policy : OddPolicy)
    {leaf : Entry → Node} (hleaf : ∀ e, leafOf hasher e = .ok (leaf e) ∧ (leaf e).width = e.width)
    {entries : List Entry} (hne : entries ≠ []) (huniform : ∀ e ∈ entries, e.width = width) :
    ∃ levels, build hasher policy entries = .ok (ofLevels entries levels) ∧
      Tower hasher policy width (entries.map leaf) levels := by
  have hleaves : leavesOf hasher entries = .ok (entries.map leaf) :=
    mapM_eq_ok_map fun e _ => (hleaf e).1
  have hwidth : Node.Uniform width (entries.map leaf) := by
    intro n hn
    obtain ⟨e, he, rfl⟩ := List.mem_map.mp hn
    rw [(hleaf e).2, huniform e he]
  obtain ⟨levels, hlevels, htower⟩ :=
    exists_tower hhasher.combine policy (by simpa using hne) hwidth
  refine ⟨levels, ?_, htower⟩
  rw [build, hleaves]
  show (buildLevels hasher policy (entries.map leaf) >>= _) = _
  rw [hlevels]
  rfl

/-! ### Both layers -/

/-- A chunk of 2 ^ k entries, or one whose root is carried up, becomes its root k levels up. -/
theorem Tower.climbs_root_of_length {leaves : List Node} {levels : List (List Node)} {k : Nat}
    (h : Tower hasher policy width leaves levels)
    (hlength : leaves.length = 2 ^ k ∨ policy = .carryUp ∧ leaves.length ≤ 2 ^ k) :
    Climbs hasher policy width k leaves [rootOf levels] := by
  have hroot := h.climbs_root
  rcases hlength with hfull | ⟨hpolicy, hle⟩
  · have hdepth : treeDepth leaves.length = k := by
      rw [treeDepth_eq_clog, hfull, Nat.clog_pow 2 k Nat.one_lt_two]
    rw [hdepth] at hroot
    exact hroot
  · subst hpolicy
    have hdepth : treeDepth leaves.length ≤ k := (treeDepth_le_iff _ k).mpr hle
    have hclimbs := hroot.trans (Climbs.carried (k - treeDepth leaves.length) (rootOf levels))
    rw [Nat.sub_add_cancel hdepth] at hclimbs
    exact hclimbs

section

variable {k : Nat} {chunks : List (List Entry)} {leaf : Entry → Node}
  {lower : List Entry → List (List Node)} {levels : List (List Node)}

/-- Level k of the tree over all entries consists of the roots of the chunks. -/
theorem Tower.getElem?_roots (h : Tower hasher policy width (chunks.flatten.map leaf) levels)
    (hlower : ∀ chunk ∈ chunks, Tower hasher policy width (chunk.map leaf) (lower chunk))
    (hcount : 2 ≤ chunks.length) (hcut : Partition.FitsLevel policy k chunks) :
    levels[k]? = some (chunks.map fun chunk => rootOf (lower chunk)) := by
  have hclimbs : List.Forall₂ (fun block root => Climbs hasher policy width k block [root])
      (chunks.map (List.map leaf)) (chunks.map fun chunk => rootOf (lower chunk)) := by
    rw [List.forall₂_map_left_iff, List.forall₂_map_right_iff, List.forall₂_same]
    intro chunk hchunk
    apply (hlower chunk hchunk).climbs_root_of_length
    rw [List.length_map]
    exact (hcut.length_of_mem hchunk).2
  have hsize : ∀ block ∈ (chunks.map (List.map leaf)).dropLast, block.length = 2 ^ k := by
    intro block hblock
    rw [← List.map_dropLast] at hblock
    obtain ⟨chunk, hchunk, rfl⟩ := List.mem_map.mp hblock
    rw [List.length_map, hcut.length_of_mem_dropLast chunk hchunk]
  have huniform : ∀ block ∈ chunks.map (List.map leaf), Node.Uniform width block := by
    intro block hblock
    obtain ⟨chunk, hchunk, rfl⟩ := List.mem_map.mp hblock
    exact (hlower chunk hchunk).uniform _ (List.mem_of_getElem? (hlower chunk hchunk).first)
  have hall := Climbs.flatten hclimbs hsize huniform
  rw [← List.map_flatten] at hall
  -- More than 2 ^ k entries make a tree that is more than k levels deep.
  have hdeep : k < treeDepth (chunks.flatten.map leaf).length := by
    rw [← Nat.not_le, treeDepth_le_iff, List.length_map, Nat.not_le]
    exact hcut.lt_length_flatten hcount
  have hlevel := h.getElem?_of_climbs h.first hall (by rw [h.length]; omega)
  rw [Nat.zero_add] at hlevel
  exact hlevel

/-- The roots of the chunks aggregate to the levels from level k on. -/
theorem Aggregator.buildFromTrees_of_tower (hhasher : hasher.Combines) (limit : Option Int)
    (h : Tower hasher policy width (chunks.flatten.map leaf) levels)
    (hlower : ∀ chunk ∈ chunks, Tower hasher policy width (chunk.map leaf) (lower chunk))
    (hcount : 2 ≤ chunks.length) (hcut : Partition.FitsLevel policy k chunks)
    (huniform : ∀ e ∈ chunks.flatten, e.width = width) :
    (Aggregator.mk hasher policy limit).buildFromTrees
        (chunks.map fun chunk => MiniTree.ofLevels chunk (lower chunk)) =
      ((Aggregator.mk hasher policy limit).checkRange (rootOf levels)).map fun _ =>
        ⟨rootOf levels, levels.drop k, treeDepth chunks.length,
          chunks.map fun chunk => MiniTree.ofLevels chunk (lower chunk)⟩ := by
  have hlevel := h.getElem?_roots hlower hcount hcut
  have hne : chunks ≠ [] := List.length_pos_iff.mp (by omega)
  obtain ⟨nested, hbuilt, hnested⟩ := exists_tower hhasher policy (by simpa using hne)
    (h.uniform _ (List.mem_of_getElem? hlevel))
  rw [hnested.unique (h.drop hlevel)] at hbuilt
  have hroots : (chunks.map fun chunk => MiniTree.ofLevels chunk (lower chunk)).map MiniTree.root =
      chunks.map fun chunk => rootOf (lower chunk) := by
    rw [List.map_map]
    rfl
  have hwidth : ∀ t ∈ chunks.map (fun chunk => MiniTree.ofLevels chunk (lower chunk)),
      t.root.width = width := by
    intro t ht
    apply h.uniform _ (List.mem_of_getElem? hlevel)
    rw [← hroots]
    exact List.mem_map_of_mem ht
  have hentries : ∀ t ∈ chunks.map (fun chunk => MiniTree.ofLevels chunk (lower chunk)),
      ∀ e ∈ t.entries, e.width = width := by
    intro t ht e he
    obtain ⟨chunk, hchunk, rfl⟩ := List.mem_map.mp ht
    exact huniform e (List.mem_flatten_of_mem hchunk he)
  rw [Aggregator.buildFromTrees_eq (by simpa using hne) hwidth hentries, hroots, hbuilt,
    List.length_map]
  dsimp only
  rw [rootOf_drop hlevel]
  cases (Aggregator.mk hasher policy limit).checkRange (rootOf levels) with
  | error failure => rfl
  | ok _ => rfl

end

/-- The tree over the roots of mini-trees is the upper part of the tree over all entries: level j of the
one is level k + j of the other, and a limit on balances that refuses one root refuses the other. -/
theorem nested_eq_flat (hhasher : hasher.Total) (policy : OddPolicy) (k : Nat)
    {chunks : List (List Entry)} (hcount : 2 ≤ chunks.length)
    (hcut : Partition.FitsLevel policy k chunks)
    (huniform : ∀ e ∈ chunks.flatten, e.width = width) :
    ∃ flat trees nested, MiniTree.build hasher policy chunks.flatten = .ok flat ∧
      chunks.mapM (MiniTree.build hasher policy) = .ok trees ∧
      (Aggregator.mk hasher policy none).buildFromTrees trees = .ok nested ∧
      (∀ limit, (Aggregator.mk hasher policy limit).buildFromTrees trees =
        ((Aggregator.mk hasher policy limit).checkRange flat.root).map fun _ => nested) ∧
      (∀ j, nested.levels[j]? = flat.levels[k + j]?) ∧
      nested.root = flat.root ∧ flat.depth = k + nested.depth := by
  obtain ⟨leaf, hleaf⟩ := hhasher.exists_leaf
  have hne : chunks.flatten ≠ [] :=
    List.length_pos_iff.mp (Nat.zero_lt_of_lt (hcut.lt_length_flatten hcount))
  obtain ⟨levels, hflat, htower⟩ := MiniTree.exists_tower_of_total hhasher policy hleaf hne huniform
  have hchunk : ∀ chunk ∈ chunks, ∃ levels,
      MiniTree.build hasher policy chunk = .ok (.ofLevels chunk levels) ∧
        Tower hasher policy width (chunk.map leaf) levels := by
    intro chunk hmem
    apply MiniTree.exists_tower_of_total hhasher policy hleaf (hcut.length_of_mem hmem).1
    intro e he
    exact huniform e (List.mem_flatten_of_mem hmem he)
  choose! lower hlower using hchunk
  have hnested := fun limit => Aggregator.buildFromTrees_of_tower hhasher.combine limit htower
    (fun chunk hmem => (hlower chunk hmem).2) hcount hcut huniform
  have hlevel := htower.getElem?_roots (fun chunk hmem => (hlower chunk hmem).2) hcount hcut
  refine ⟨_, _, _, hflat, mapM_eq_ok_map fun chunk hmem => (hlower chunk hmem).1, hnested none,
    hnested, ?_, rfl, ?_⟩
  · intro j
    exact List.getElem?_drop
  · have hdepth := htower.treeDepth_level hlevel
    rw [List.length_map, List.length_map] at hdepth
    show ((treeDepth chunks.flatten.length : Nat) : Int) = k + (treeDepth chunks.length : Nat)
    rw [← hdepth]
    exact Nat.cast_add _ _

end

namespace Sample

/-- A hasher whose digests list what was hashed. -/
def listing : Hasher :=
  ⟨fun _ balances => .ok (1 :: balances.map fun b => UInt8.ofNat b.natAbs),
    fun left right => .ok (2 :: (left.hash ++ right.hash))⟩

theorem total_listing : listing.Total :=
  ⟨fun _ _ => ⟨_, rfl⟩, fun _ _ => ⟨_, rfl⟩⟩

/-- Five entries in three chunks, the last one not full. -/
def cut : List (List Entry) :=
  [[⟨"a", [1]⟩, ⟨"b", [2]⟩], [⟨"c", [3]⟩, ⟨"d", [4]⟩], [⟨"e", [5]⟩]]

theorem fitsLevel_cut : Partition.FitsLevel .carryUp 1 cut :=
  .inr ⟨rfl, cut.dropLast, [⟨"e", [5]⟩], rfl, by decide, by decide, by decide⟩

end Sample

theorem nested_eq_flat_five :
    ∃ flat trees nested, MiniTree.build Sample.listing .carryUp Sample.cut.flatten = .ok flat ∧
      Sample.cut.mapM (MiniTree.build Sample.listing .carryUp) = .ok trees ∧
      (Aggregator.mk Sample.listing .carryUp none).buildFromTrees trees = .ok nested ∧
      (∀ j, nested.levels[j]? = flat.levels[1 + j]?) ∧ flat.depth = 3 ∧ nested.depth = 2 := by
  obtain ⟨flat, trees, nested, hflat, htrees, hnested, -, hlevels, -, hdepth⟩ :=
    nested_eq_flat Sample.total_listing .carryUp 1 (by decide) Sample.fitsLevel_cut
      (show ∀ e ∈ Sample.cut.flatten, e.width = 1 by decide)
  have hthree : flat.depth = 3 := by
    cases hflat
    rfl
  refine ⟨flat, trees, nested, hflat, htrees, hnested, hlevels, hthree, ?_⟩
  omega

end SumTree
