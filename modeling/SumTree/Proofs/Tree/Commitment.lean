import SumTree.Partition
import SumTree.Proofs.Partition
import SumTree.Proofs.Tree.Aggregate
import SumTree.Proofs.Tree.Levels
import SumTree.Proofs.Tree.Payload

/-!
# What a root commits to

With a hash function for which nobody finds a collision, the digest of a root determines the entries
beneath it. The theorem (`entries_of_root`) says it without an assumption on the hash function: either
the entries are the same, or a collision is found among the payloads that were hashed for the two
trees, or one of those payloads has the digest that a padding node pretends to have.

The two trees may differ in everything: their chunks, their shapes and their policies. What carries the
proof is therefore no comparison of shapes but a derivation of each node from the entries beneath it
(`Commits`), and an induction over two such derivations at once (`Commits.binding`). The lemmas in
between follow a derivation up through a level, through all levels, and through both layers of trees.

## Main Definitions

* `pairsOf` — the pairs that the nodes of a level are combined in.
* `MiniTree.hashed`, `AggregateTree.hashed` — the bytes that were hashed for a tree.
* `Commits` — that a node is derived from some entries.
* `Aggregator.buildFromEntries` — both layers of trees over some entries.
-/

namespace SumTree

/-! ### What is hashed -/

/-- The pairs that the nodes of a level are combined in. -/
def pairsOf (policy : OddPolicy) : List Node → List (Node × Node)
  | [] => []
  | [last] =>
    match policy with
    | .carryUp => []
    | .zeroPad => [(last, paddingFor last last.width)]
  | left :: right :: rest => (left, right) :: pairsOf policy rest

/-- What the nodes above the first of some levels are hashed from. The last level has none above it. -/
def preimagesAbove (policy : OddPolicy) (levels : List (List Node)) : List Preimage :=
  (levels.dropLast.flatMap (pairsOf policy)).map fun p => .parent p.1 p.2

namespace Preimage

/-- The bytes of those preimages that can be written. -/
def allBytes (preimages : List Preimage) : List (List UInt8) :=
  preimages.filterMap fun p => p.bytes.toOption

theorem mem_allBytes {preimages : List Preimage} {p : Preimage} {data : List UInt8}
    (hp : p ∈ preimages) (hdata : p.bytes = .ok data) : data ∈ allBytes preimages := by
  refine List.mem_filterMap.mpr ⟨p, hp, ?_⟩
  rw [hdata]
  rfl

end Preimage

/-- The bytes that were hashed for a mini-tree: those of its entries and those of its parents. -/
def MiniTree.hashed (policy : OddPolicy) (t : MiniTree) : List (List UInt8) :=
  Preimage.allBytes (t.entries.map .leaf) ++ Preimage.allBytes (preimagesAbove policy t.levels)

/-- The bytes that were hashed for both layers of trees. -/
def AggregateTree.hashed (lower upper : OddPolicy) (t : AggregateTree) : List (List UInt8) :=
  t.miniTrees.flatMap (MiniTree.hashed lower) ++ Preimage.allBytes (preimagesAbove upper t.levels)

/-! ### Derivations of nodes -/

/-- A node is derived from some entries, with all that is hashed on the way among `asked`. -/
inductive Commits (hash : List UInt8 → Digest) (asked : List (List UInt8)) : List Entry → Node → Prop
  | leaf {e : Entry} {data : List UInt8} (hdata : (Preimage.leaf e).bytes = .ok data)
    (hasked : data ∈ asked) : Commits hash asked [e] ⟨hash data, e.amounts⟩
  | pair {front back : List Entry} {left right : Node} {data : List UInt8}
    (hleft : Commits hash asked front left) (hright : Commits hash asked back right)
    (hdata : (Preimage.parent left right).bytes = .ok data) (hasked : data ∈ asked) :
    Commits hash asked (front ++ back)
      ⟨hash data, List.zipWith (· + ·) left.balances right.balances⟩
  | padded {entries : List Entry} {n : Node} {data : List UInt8}
    (hnode : Commits hash asked entries n)
    (hdata : (Preimage.parent n (paddingFor n n.width)).bytes = .ok data) (hasked : data ∈ asked) :
    Commits hash asked entries
      ⟨hash data, List.zipWith (· + ·) n.balances (paddingFor n n.width).balances⟩

section

variable {hash : List UInt8 → Digest} {asked asked' : List (List UInt8)}

/-- The digest of a derived node is that of something hashed. -/
theorem Commits.exists_hash {entries : List Entry} {n : Node} (h : Commits hash asked entries n) :
    ∃ data ∈ asked, n.hash = hash data := by
  cases h with
  | leaf hdata hasked => exact ⟨_, hasked, rfl⟩
  | pair _ _ hdata hasked => exact ⟨_, hasked, rfl⟩
  | padded _ hdata hasked => exact ⟨_, hasked, rfl⟩

/-- A digest that the padding beside a derived node has is the digest of zeros. -/
theorem hash_paddingFor (hlength : ∀ data, (hash data).length = 32) {entries : List Entry} {n : Node}
    (h : Commits hash asked entries n) : (paddingFor n n.width).hash = List.replicate 32 0 := by
  obtain ⟨data, -, hdata⟩ := h.exists_hash
  show List.replicate n.hash.length 0 = _
  rw [hdata, hlength]

/-- Without a collision, equal digests were taken of the same preimage. -/
theorem Preimage.eq_of_hash (hinjective : ∀ p ∈ asked, ∀ q ∈ asked', hash p = hash q → p = q)
    {p q : Preimage} {data data' : List UInt8} (hp : p.bytes = .ok data) (hdata : data ∈ asked)
    (hq : q.bytes = .ok data') (hdata' : data' ∈ asked') (hhash : hash data = hash data') :
    p = q ∧ data = data' := by
  obtain rfl := hinjective data hdata data' hdata' hhash
  exact ⟨eq_of_bytes hp hq, rfl⟩

/-- Without a collision and without a payload that has the digest of zeros, nodes of one digest are
equal and derived from the same entries. -/
theorem Commits.binding (hlength : ∀ data, (hash data).length = 32)
    (hinjective : ∀ p ∈ asked, ∀ q ∈ asked', hash p = hash q → p = q)
    (hzero : ∀ p ∈ asked ++ asked', hash p ≠ List.replicate 32 0)
    {entries entries' : List Entry} {n n' : Node} (h : Commits hash asked entries n)
    (h' : Commits hash asked' entries' n') (hhash : n.hash = n'.hash) :
    entries = entries' ∧ n = n' := by
  -- Equal digests were taken of the same preimage: the last steps of the two derivations are of one
  -- kind, or a node of one derivation is the padding of the other.
  induction h generalizing entries' n' with
  | leaf hdata hasked =>
      cases h' with
      | leaf hdata' hasked' =>
          obtain ⟨hsame, rfl⟩ := Preimage.eq_of_hash hinjective hdata hasked hdata' hasked' hhash
          cases hsame
          exact ⟨rfl, rfl⟩
      | pair _ _ hdata' hasked' =>
          cases (Preimage.eq_of_hash hinjective hdata hasked hdata' hasked' hhash).1
      | padded _ hdata' hasked' =>
          cases (Preimage.eq_of_hash hinjective hdata hasked hdata' hasked' hhash).1
  | @pair front back left right data hleft hright hdata hasked ihleft ihright =>
      cases h' with
      | leaf hdata' hasked' =>
          cases (Preimage.eq_of_hash hinjective hdata hasked hdata' hasked' hhash).1
      | pair hleft' hright' hdata' hasked' =>
          obtain ⟨hsame, rfl⟩ := Preimage.eq_of_hash hinjective hdata hasked hdata' hasked' hhash
          obtain ⟨rfl, rfl⟩ := Preimage.parent.inj hsame
          obtain ⟨rfl, -⟩ := ihleft hleft' rfl
          obtain ⟨rfl, -⟩ := ihright hright' rfl
          exact ⟨rfl, rfl⟩
      | padded hnode' hdata' hasked' =>
          have hsame := (Preimage.eq_of_hash hinjective hdata hasked hdata' hasked' hhash).1
          obtain ⟨rfl, rfl⟩ := Preimage.parent.inj hsame
          obtain ⟨found, hfound, hpadding⟩ := hright.exists_hash
          rw [hash_paddingFor hlength hnode'] at hpadding
          exact absurd hpadding.symm (hzero found (List.mem_append_left _ hfound))
  | @padded entries n data hnode hdata hasked ih =>
      cases h' with
      | leaf hdata' hasked' =>
          cases (Preimage.eq_of_hash hinjective hdata hasked hdata' hasked' hhash).1
      | pair hleft' hright' hdata' hasked' =>
          have hsame := (Preimage.eq_of_hash hinjective hdata hasked hdata' hasked' hhash).1
          obtain ⟨rfl, rfl⟩ := Preimage.parent.inj hsame
          obtain ⟨found, hfound, hpadding⟩ := hright'.exists_hash
          rw [hash_paddingFor hlength hnode] at hpadding
          exact absurd hpadding.symm (hzero found (List.mem_append_right _ hfound))
      | padded hnode' hdata' hasked' =>
          obtain ⟨hsame, rfl⟩ := Preimage.eq_of_hash hinjective hdata hasked hdata' hasked' hhash
          obtain ⟨rfl, -⟩ := Preimage.parent.inj hsame
          obtain ⟨rfl, -⟩ := ih hnode' rfl
          exact ⟨rfl, rfl⟩

/-! ### Derivations of levels -/

/-- The nodes of a level are derived from some entries, each from those after the ones of the nodes
before it. -/
def CommitsAll (hash : List UInt8 → Digest) (asked : List (List UInt8)) (entries : List Entry) :
    List Node → Prop
  | [] => entries = []
  | n :: rest => ∃ front back, entries = front ++ back ∧ Commits hash asked front n ∧
      CommitsAll hash asked back rest

/-- A single node is derived from all the entries. -/
theorem commitsAll_singleton {entries : List Entry} {n : Node} :
    CommitsAll hash asked entries [n] ↔ Commits hash asked entries n := by
  constructor
  · rintro ⟨front, back, rfl, hnode, rfl⟩
    rw [List.append_nil]
    exact hnode
  · intro hnode
    exact ⟨entries, [], (List.append_nil entries).symm, hnode, rfl⟩

/-- A node is derived from its pair when the parent of the pair was hashed. -/
theorem exists_data_of_combineNodes {left right parent : Node}
    (h : combineNodes (.payloads hash) left right = .ok parent) :
    ∃ data, (Preimage.parent left right).bytes = .ok data ∧
      parent = ⟨hash data, List.zipWith (· + ·) left.balances right.balances⟩ := by
  unfold combineNodes at h
  split at h
  · cases h
  · obtain ⟨digest, hdigest, h⟩ := exists_of_bind_eq_ok h
    cases h
    rw [Hasher.payloads_combine] at hdigest
    obtain ⟨data, hdata, rfl⟩ := exists_of_map_eq_ok (mapError_eq_ok_iff.mp hdigest)
    exact ⟨data, hdata, rfl⟩

/-- The level above a derived level is derived from the same entries. -/
theorem commitsAll_of_nextLevel {policy : OddPolicy} {width : Nat} {level parents : List Node}
    (h : nextLevel (.payloads hash) policy width level = .ok parents)
    (huniform : Node.Uniform width level)
    (hasked : ∀ p ∈ pairsOf policy level, ∀ data, (Preimage.parent p.1 p.2).bytes = .ok data →
      data ∈ asked)
    {entries : List Entry} (hlevel : CommitsAll hash asked entries level) :
    CommitsAll hash asked entries parents := by
  fun_induction nextLevel (.payloads hash) policy width level generalizing entries parents with
  | case1 =>
      cases h
      exact hlevel
  | case2 last hpolicy =>
      cases h
      exact hlevel
  | case3 last hpolicy =>
      subst hpolicy
      obtain ⟨parent, hparent, rfl⟩ := exists_of_map_eq_ok h
      obtain ⟨data, hdata, rfl⟩ := exists_data_of_combineNodes hparent
      have hwidth : last.width = width := huniform last List.mem_cons_self
      rw [← hwidth] at hdata
      rw [commitsAll_singleton] at hlevel ⊢
      rw [← hwidth]
      exact .padded hlevel hdata (hasked (last, paddingFor last last.width) List.mem_cons_self data hdata)
  | case4 left right rest ih =>
      obtain ⟨parent, hparent, h⟩ := exists_of_bind_eq_ok h
      obtain ⟨above, habove, h⟩ := exists_of_bind_eq_ok h
      cases h
      obtain ⟨data, hdata, rfl⟩ := exists_data_of_combineNodes hparent
      obtain ⟨front, others, rfl, hleft, hothers⟩ := hlevel
      obtain ⟨middle, back, rfl, hright, hback⟩ := hothers
      have hrest : Node.Uniform width rest := fun n hn =>
        huniform n (List.mem_cons_of_mem left (List.mem_cons_of_mem right hn))
      refine ⟨front ++ middle, back, (List.append_assoc front middle back).symm, ?_, ?_⟩
      · exact .pair hleft hright hdata (hasked (left, right) List.mem_cons_self data hdata)
      · exact ih habove hrest (fun p hp => hasked p (List.mem_cons_of_mem _ hp)) hback

/-- All the levels over derived leaves are derived from the same entries, and so is the root. -/
theorem Tower.commits {policy : OddPolicy} {width : Nat} {leaves : List Node}
    {levels : List (List Node)} (h : Tower (.payloads hash) policy width leaves levels)
    (hasked : ∀ data ∈ Preimage.allBytes (preimagesAbove policy levels), data ∈ asked)
    {entries : List Entry} (hleaves : CommitsAll hash asked entries leaves) :
    Commits hash asked entries (rootOf levels) := by
  have hlevels : ∀ level ∈ levels, CommitsAll hash asked entries level := by
    refine h.forall_level (CommitsAll hash asked entries) hleaves ?_
    intro lower hlower upper huniform hupper hcommits
    refine commitsAll_of_nextLevel hupper huniform ?_ hcommits
    intro p hp data hdata
    apply hasked
    refine Preimage.mem_allBytes ?_ hdata
    exact List.mem_map.mpr ⟨p, List.mem_flatMap.mpr ⟨lower, hlower, hp⟩, rfl⟩
  exact commitsAll_singleton.mp (hlevels _ h.rootOf_mem)

/-! ### Both layers -/

theorem commitsAll_leaves {entries : List Entry} {leaves : List Node}
    (h : leavesOf (.payloads hash) entries = .ok leaves)
    (hasked : ∀ e ∈ entries, ∀ data, (Preimage.leaf e).bytes = .ok data → data ∈ asked) :
    CommitsAll hash asked entries leaves := by
  have hall := mapM_eq_ok_iff.mp h
  clear h
  induction hall with
  | nil => rfl
  | @cons e leaf rest leaves hleaf _ ih =>
      unfold leafOf at hleaf
      obtain ⟨digest, hdigest, hleaf⟩ := exists_of_bind_eq_ok hleaf
      cases hleaf
      rw [Hasher.payloads_leaf] at hdigest
      obtain ⟨data, hdata, rfl⟩ := exists_of_map_eq_ok (mapError_eq_ok_iff.mp hdigest)
      refine ⟨[e], rest, rfl, .leaf hdata (hasked e List.mem_cons_self data hdata), ?_⟩
      exact ih fun d hd => hasked d (List.mem_cons_of_mem e hd)

/-- The root of a mini-tree is derived from its entries. -/
theorem commits_of_build {policy : OddPolicy} {entries : List Entry} {t : MiniTree}
    (h : MiniTree.build (.payloads hash) policy entries = .ok t)
    (hasked : ∀ data ∈ t.hashed policy, data ∈ asked) : Commits hash asked entries t.root := by
  unfold MiniTree.build at h
  obtain ⟨leaves, hleaves, h⟩ := exists_of_bind_eq_ok h
  obtain ⟨levels, hlevels, h⟩ := exists_of_bind_eq_ok h
  cases h
  obtain ⟨-, width, huniform⟩ := uniform_of_buildLevels hlevels
  have hcommits := commitsAll_leaves hleaves fun e he data hdata =>
    hasked data (List.mem_append_left _ (Preimage.mem_allBytes (List.mem_map_of_mem he) hdata))
  exact (tower_of_buildLevels hlevels huniform).commits
    (fun data hdata => hasked data (List.mem_append_right _ hdata)) hcommits

/-- The roots of mini-trees are derived from the entries of their chunks. -/
theorem commitsAll_roots {policy : OddPolicy} {chunks : List (List Entry)} {trees : List MiniTree}
    (h : List.Forall₂ (fun chunk t => MiniTree.build (.payloads hash) policy chunk = .ok t) chunks trees)
    (hasked : ∀ t ∈ trees, ∀ data ∈ t.hashed policy, data ∈ asked) :
    CommitsAll hash asked chunks.flatten (trees.map MiniTree.root) := by
  induction h with
  | nil => rfl
  | @cons chunk t chunks trees hbuilt _ ih =>
      refine ⟨chunk, chunks.flatten, rfl, ?_, ?_⟩
      · exact commits_of_build hbuilt (hasked t List.mem_cons_self)
      · exact ih fun u hu => hasked u (List.mem_cons_of_mem t hu)

end

/-- Both layers of trees over some entries: the entries are cut into chunks, a mini-tree is built over
each chunk, and their roots are aggregated. -/
def Aggregator.buildFromEntries (a : Aggregator) (policy : OddPolicy) (entries : List Entry)
    (executors : Int) : Except Failure AggregateTree := do
  let chunks ← Partition.chunks entries executors
  let trees ← chunks.mapM fun chunk => (MiniTree.build a.hasher policy chunk).mapError TreeFault.failure
  a.buildFromTrees trees

section

variable {hash : List UInt8 → Digest}

/-- The root of the aggregate tree is derived from all the entries. -/
theorem commits_of_buildFromEntries {lower upper : OddPolicy} {limit : Option Int}
    {entries : List Entry} {executors : Int} {t : AggregateTree}
    (h : Aggregator.buildFromEntries ⟨.payloads hash, upper, limit⟩ lower entries executors = .ok t) :
    Commits hash (t.hashed lower upper) entries t.root := by
  unfold Aggregator.buildFromEntries at h
  obtain ⟨chunks, hchunks, h⟩ := exists_of_bind_eq_ok h
  obtain ⟨trees, htrees, h⟩ := exists_of_bind_eq_ok h
  have hover := Aggregator.over_of_buildFromTrees h
  have hbuilt : List.Forall₂ (fun chunk t => MiniTree.build (.payloads hash) lower chunk = .ok t)
      chunks trees :=
    (mapM_eq_ok_iff.mp htrees).imp fun _ _ htree => mapError_eq_ok_iff.mp htree
  have hroots := @commitsAll_roots hash (t.hashed lower upper) _ _ _ hbuilt ?_
  · obtain ⟨-, width, huniform⟩ := uniform_of_buildLevels hover.levels
    rw [Partition.flatten_of_chunks hchunks] at hroots
    rw [hover.root]
    refine (tower_of_buildLevels hover.levels huniform).commits ?_ hroots
    exact fun data hdata => List.mem_append_right _ hdata
  · intro tree htree data hdata
    rw [← hover.miniTrees] at htree
    exact List.mem_append_left _ (List.mem_flatMap.mpr ⟨tree, htree, hdata⟩)

/-- Two aggregate trees of one root digest, built with whatever numbers of executors, policies and
limits, are built over the same entries and have equal roots, unless two payloads hashed for them
collide or one of those has the digest of nothing but zeros. -/
theorem entries_of_root (hlength : ∀ data, (hash data).length = 32)
    {lower lower' upper upper' : OddPolicy} {limit limit' : Option Int} {entries entries' : List Entry}
    {executors executors' : Int} {t t' : AggregateTree}
    (h : Aggregator.buildFromEntries ⟨.payloads hash, upper, limit⟩ lower entries executors = .ok t)
    (h' : Aggregator.buildFromEntries ⟨.payloads hash, upper', limit'⟩ lower' entries' executors' =
      .ok t')
    (hroot : t.root.hash = t'.root.hash) :
    (entries = entries' ∧ t.root = t'.root) ∨
      (∃ p ∈ t.hashed lower upper, ∃ q ∈ t'.hashed lower' upper', p ≠ q ∧ hash p = hash q) ∨
      ∃ p ∈ t.hashed lower upper ++ t'.hashed lower' upper', hash p = List.replicate 32 0 := by
  by_cases hcollision : ∃ p ∈ t.hashed lower upper, ∃ q ∈ t'.hashed lower' upper',
      p ≠ q ∧ hash p = hash q
  · exact .inr (.inl hcollision)
  · by_cases hzero : ∃ p ∈ t.hashed lower upper ++ t'.hashed lower' upper',
        hash p = List.replicate 32 0
    · exact .inr (.inr hzero)
    · push Not at hcollision hzero
      left
      refine (commits_of_buildFromEntries h).binding hlength ?_ hzero
        (commits_of_buildFromEntries h') hroot
      intro p hp q hq heq
      by_contra hne
      exact hcollision p hp q hq hne heq

end

namespace Sample

/-- Two entries of one column. -/
def holders : List Entry :=
  [⟨"a", [1]⟩, ⟨"b", [2]⟩]

/-- The first bytes, filled up with ones where there are too few. -/
def front (data : List UInt8) : Digest :=
  (data ++ List.replicate 32 1).take 32

theorem length_front (data : List UInt8) : (front data).length = 32 := by
  rw [front, List.length_take, List.length_append, List.length_replicate]
  omega

end Sample

theorem entries_of_root_regrouped :
    ∃ t t', Aggregator.buildFromEntries ⟨.payloads Sample.front, .carryUp, none⟩ .carryUp
        Sample.holders 1 = .ok t ∧
      Aggregator.buildFromEntries ⟨.payloads Sample.front, .zeroPad, none⟩ .zeroPad
        Sample.holders 2 = .ok t' ∧
      ((Sample.holders = Sample.holders ∧ t.root = t'.root) ∨
        (∃ p ∈ t.hashed .carryUp .carryUp, ∃ q ∈ t'.hashed .zeroPad .zeroPad,
          p ≠ q ∧ Sample.front p = Sample.front q) ∨
        ∃ p ∈ t.hashed .carryUp .carryUp ++ t'.hashed .zeroPad .zeroPad,
          Sample.front p = List.replicate 32 0) := by
  obtain ⟨a, ha⟩ := @Preimage.exists_bytes (.leaf ⟨"a", [1]⟩) (by decide +kernel)
  obtain ⟨b, hb⟩ := @Preimage.exists_bytes (.leaf ⟨"b", [2]⟩) (by decide +kernel)
  let first : Node := ⟨Sample.front a, [1]⟩
  let second : Node := ⟨Sample.front b, [2]⟩
  obtain ⟨c, hc⟩ := @Preimage.exists_bytes (.parent first second) (by
    show ∀ b ∈ [1, 2], Decimal.fits b = true
    decide +kernel)
  let root : Node := ⟨Sample.front c, [3]⟩
  have hfirst : leafOf (.payloads Sample.front) ⟨"a", [1]⟩ = .ok first := by
    unfold leafOf
    rw [Hasher.payloads_leaf, ha]
    rfl
  have hsecond : leafOf (.payloads Sample.front) ⟨"b", [2]⟩ = .ok second := by
    unfold leafOf
    rw [Hasher.payloads_leaf, hb]
    rfl
  have hroot : combineNodes (.payloads Sample.front) first second = .ok root := by
    unfold combineNodes
    rw [Hasher.payloads_combine, hc]
    rfl
  -- The two entries are paired within one chunk, or as the roots of two.
  have hone : Aggregator.buildFromEntries ⟨.payloads Sample.front, .carryUp, none⟩ .carryUp
      Sample.holders 1 = .ok ⟨root, [[root]], 0,
        [⟨root, [[first, second], [root]], 1, false, Sample.holders⟩]⟩ := by
    have hchunks : Partition.chunks Sample.holders 1 = .ok [Sample.holders] := rfl
    unfold Aggregator.buildFromEntries
    rw [hchunks]
    simp [MiniTree.build, leavesOf, Sample.holders, hfirst, hsecond, buildLevels, firstMisfit,
      levelsFrom, nextLevel, hroot, Node.width, bind, Except.bind, pure, Except.pure, Except.mapError,
      Aggregator.buildFromTrees, Aggregator.firstUnlike, Aggregator.build, Entry.width,
      Aggregator.checkRange, rootOf, first, second, root]
    decide
  have htwo : Aggregator.buildFromEntries ⟨.payloads Sample.front, .zeroPad, none⟩ .zeroPad
      Sample.holders 2 = .ok ⟨root, [[first, second], [root]], 1,
        [⟨first, [[first]], 0, false, [⟨"a", [1]⟩]⟩, ⟨second, [[second]], 0, false, [⟨"b", [2]⟩]⟩]⟩ := by
    have hchunks : Partition.chunks Sample.holders 2 = .ok [[⟨"a", [1]⟩], [⟨"b", [2]⟩]] := rfl
    unfold Aggregator.buildFromEntries
    rw [hchunks]
    simp [MiniTree.build, leavesOf, hfirst, hsecond, buildLevels, firstMisfit,
      levelsFrom, nextLevel, hroot, Node.width, bind, Except.bind, pure, Except.pure, Except.mapError,
      Aggregator.buildFromTrees, Aggregator.firstUnlike, Aggregator.build, Entry.width,
      Aggregator.checkRange, rootOf, first, second, root]
    decide
  exact ⟨_, _, hone, htwo, entries_of_root Sample.length_front hone htwo rfl⟩

end SumTree
