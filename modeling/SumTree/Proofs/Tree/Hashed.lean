import SumTree.Proofs.Tree.Commitment

/-!
# What is hashed for a tree

The bytes that `MiniTree.hashed` and `AggregateTree.hashed` list are read off a finished tree. They are
exactly those that the hash function is applied to while the tree is built
(`buildFromEntries_restricted`): a hash function that is defined on some bytes alone is enough for the
tree if and only if all the listed bytes are among them.

## Main Definitions

* `Hasher.restricted` — the hasher of payloads whose hash function is defined on some bytes alone.
-/

namespace SumTree

variable {hash : List UInt8 → Digest} {allowed : List UInt8 → Bool}

/-- The digest of allowed bytes; there is none of others. -/
def restrict (hash : List UInt8 → Digest) (allowed : List UInt8 → Bool) (data : List UInt8) :
    Except TreeFault Digest :=
  if allowed data then .ok (hash data) else .error (.value .tooLongToWrite)

/-- The hasher of payloads whose hash function is defined on allowed bytes alone. -/
def Hasher.restricted (hash : List UInt8 → Digest) (allowed : List UInt8 → Bool) : Hasher where
  leaf username balances := (payloads id).leaf username balances >>= restrict hash allowed
  combine left right := (payloads id).combine left right >>= restrict hash allowed

/-- Whether the bytes of a preimage, if it has any, are allowed. -/
def Preimage.Allowed (allowed : List UInt8 → Bool) (p : Preimage) : Prop :=
  ∀ data, p.bytes = .ok data → allowed data = true

theorem Preimage.forall_mem_allBytes {preimages : List Preimage} :
    (∀ data ∈ allBytes preimages, allowed data = true) ↔ ∀ p ∈ preimages, p.Allowed allowed := by
  constructor
  · intro h p hp data hdata
    exact h data (mem_allBytes hp hdata)
  · intro h data hmem
    obtain ⟨p, hp, hdata⟩ := List.mem_filterMap.mp hmem
    cases hbytes : p.bytes with
    | error fault =>
        rw [hbytes] at hdata
        cases hdata
    | ok found =>
        rw [hbytes] at hdata
        cases hdata
        exact h p hp data hbytes

/-! ### Nodes -/

theorem bind_restrict_eq_ok_iff {p : Preimage} {digest : Digest} :
    (p.bytes.map id).mapError TreeFault.value >>= restrict hash allowed = .ok digest ↔
      (p.bytes.map hash).mapError TreeFault.value = .ok digest ∧ p.Allowed allowed := by
  unfold Preimage.Allowed
  cases p.bytes with
  | error fault => exact ⟨fun h => (nomatch h), fun h => (nomatch h.1)⟩
  | ok data =>
      show restrict hash allowed data = .ok digest ↔ _
      unfold restrict
      cases hallowed : allowed data with
      | true => simp [Except.map, Except.mapError, hallowed]
      | false => simp [hallowed]

theorem Hasher.leaf_restricted {e : Entry} {digest : Digest} :
    (restricted hash allowed).leaf e.username e.amounts = .ok digest ↔
      (payloads hash).leaf e.username e.amounts = .ok digest ∧
        (Preimage.leaf e).Allowed allowed := by
  rw [payloads_leaf, ← bind_restrict_eq_ok_iff, ← payloads_leaf]
  rfl

theorem Hasher.combine_restricted {left right : Node} {digest : Digest} :
    (restricted hash allowed).combine left right = .ok digest ↔
      (payloads hash).combine left right = .ok digest ∧
        (Preimage.parent left right).Allowed allowed := by
  rw [payloads_combine, ← bind_restrict_eq_ok_iff, ← payloads_combine]
  rfl

theorem leafOf_restricted {e : Entry} {leaf : Node} :
    leafOf (.restricted hash allowed) e = .ok leaf ↔
      leafOf (.payloads hash) e = .ok leaf ∧ (Preimage.leaf e).Allowed allowed :=
  bind_eq_ok_iff_and fun _ => Hasher.leaf_restricted

theorem combineNodes_restricted {left right parent : Node} :
    combineNodes (.restricted hash allowed) left right = .ok parent ↔
      combineNodes (.payloads hash) left right = .ok parent ∧
        (Preimage.parent left right).Allowed allowed := by
  unfold combineNodes
  by_cases hwidth : (left.width != right.width) = true
  · rw [if_pos hwidth, if_pos hwidth]
    exact ⟨fun h => (nomatch h), fun h => (nomatch h.1)⟩
  · rw [if_neg hwidth, if_neg hwidth]
    exact bind_eq_ok_iff_and fun _ => Hasher.combine_restricted

/-! ### Levels -/

/-- The level above a level takes the digests of its pairs. -/
theorem nextLevel_restricted {policy : OddPolicy} {width : Nat} {level parents : List Node}
    (huniform : Node.Uniform width level) :
    nextLevel (.restricted hash allowed) policy width level = .ok parents ↔
      nextLevel (.payloads hash) policy width level = .ok parents ∧
        ∀ p ∈ pairsOf policy level, (Preimage.parent p.1 p.2).Allowed allowed := by
  fun_induction pairsOf policy level generalizing parents with
  | case1 => simp [nextLevel]
  | case2 last hpolicy =>
      subst hpolicy
      simp
  | case3 last hpolicy =>
      subst hpolicy
      have hwidth : last.width = width := huniform last List.mem_cons_self
      rw [hwidth]
      simp only [nextLevel, map_eq_ok_iff, combineNodes_restricted, List.mem_singleton, forall_eq]
      constructor
      · rintro ⟨parent, ⟨hparent, hallowed⟩, h⟩
        exact ⟨⟨parent, hparent, h⟩, hallowed⟩
      · rintro ⟨⟨parent, hparent, h⟩, hallowed⟩
        exact ⟨parent, ⟨hparent, hallowed⟩, h⟩
  | case4 left right rest ih =>
      have hrest : Node.Uniform width rest := fun n hn =>
        huniform n (List.mem_cons_of_mem left (List.mem_cons_of_mem right hn))
      simp only [nextLevel, bind_eq_ok_iff, combineNodes_restricted, ih hrest, List.forall_mem_cons]
      constructor
      · rintro ⟨parent, ⟨hparent, hpair⟩, above, ⟨habove, hpairs⟩, h⟩
        exact ⟨⟨parent, hparent, above, habove, h⟩, hpair, hpairs⟩
      · rintro ⟨⟨parent, hparent, above, habove, h⟩, hpair, hpairs⟩
        exact ⟨parent, ⟨hparent, hpair⟩, above, ⟨habove, hpairs⟩, h⟩

theorem levelsFrom_ne_nil {hasher : Hasher} {policy : OddPolicy} {width fuel : Nat}
    {level : List Node} {levels : List (List Node)}
    (h : levelsFrom hasher policy width fuel level = .ok levels) : levels ≠ [] := by
  cases fuel with
  | zero =>
      cases h
      exact List.cons_ne_nil _ _
  | succ fuel =>
      unfold levelsFrom at h
      split at h
      · cases h
        exact List.cons_ne_nil _ _
      · obtain ⟨parents, -, h⟩ := exists_of_bind_eq_ok h
        obtain ⟨above, -, h⟩ := exists_of_bind_eq_ok h
        cases h
        exact List.cons_ne_nil _ _

theorem forall_mem_preimagesAbove_cons {policy : OddPolicy} {level : List Node}
    {above : List (List Node)} (h : above ≠ []) {P : Preimage → Prop} :
    (∀ p ∈ preimagesAbove policy (level :: above), P p) ↔
      (∀ p ∈ pairsOf policy level, P (.parent p.1 p.2)) ∧
        ∀ p ∈ preimagesAbove policy above, P p := by
  unfold preimagesAbove
  rw [List.dropLast_cons_of_ne_nil h, List.flatMap_cons, List.map_append, List.forall_mem_append,
    List.forall_mem_map]

theorem levelsFrom_restricted {policy : OddPolicy} {width fuel : Nat} {level : List Node}
    {levels : List (List Node)} (huniform : Node.Uniform width level) :
    levelsFrom (.restricted hash allowed) policy width fuel level = .ok levels ↔
      levelsFrom (.payloads hash) policy width fuel level = .ok levels ∧
        ∀ p ∈ preimagesAbove policy levels, p.Allowed allowed := by
  induction fuel generalizing level levels with
  | zero =>
      unfold levelsFrom
      constructor
      · intro h
        cases h
        exact ⟨rfl, fun p hp => absurd hp List.not_mem_nil⟩
      · rintro ⟨h, -⟩
        exact h
  | succ fuel ih =>
      unfold levelsFrom
      split
      · constructor
        · intro h
          cases h
          exact ⟨rfl, fun p hp => absurd hp List.not_mem_nil⟩
        · rintro ⟨h, -⟩
          exact h
      · simp only [bind_eq_ok_iff, nextLevel_restricted huniform]
        constructor
        · rintro ⟨parents, ⟨hparents, hpairs⟩, above, habove, h⟩
          cases h
          obtain ⟨habove, hrest⟩ := (ih (nextLevel_spec hparents huniform).2.1).mp habove
          refine ⟨⟨parents, hparents, above, habove, rfl⟩, ?_⟩
          exact (forall_mem_preimagesAbove_cons (levelsFrom_ne_nil habove)).mpr ⟨hpairs, hrest⟩
        · rintro ⟨⟨parents, hparents, above, habove, h⟩, hallowed⟩
          cases h
          obtain ⟨hpairs, hrest⟩ :=
            (forall_mem_preimagesAbove_cons (levelsFrom_ne_nil habove)).mp hallowed
          refine ⟨parents, ⟨hparents, hpairs⟩, above, ?_, rfl⟩
          exact (ih (nextLevel_spec hparents huniform).2.1).mpr ⟨habove, hrest⟩

theorem buildLevels_restricted {policy : OddPolicy} {leaves : List Node} {levels : List (List Node)} :
    buildLevels (.restricted hash allowed) policy leaves = .ok levels ↔
      buildLevels (.payloads hash) policy leaves = .ok levels ∧
        ∀ p ∈ preimagesAbove policy levels, p.Allowed allowed := by
  constructor
  · intro h
    obtain ⟨hne, width, huniform⟩ := uniform_of_buildLevels h
    rw [buildLevels_eq hne huniform] at h ⊢
    exact (levelsFrom_restricted huniform).mp h
  · rintro ⟨h, hallowed⟩
    obtain ⟨hne, width, huniform⟩ := uniform_of_buildLevels h
    rw [buildLevels_eq hne huniform] at h ⊢
    exact (levelsFrom_restricted huniform).mpr ⟨h, hallowed⟩

/-! ### Trees -/

theorem leavesOf_restricted {entries : List Entry} {leaves : List Node} :
    leavesOf (.restricted hash allowed) entries = .ok leaves ↔
      leavesOf (.payloads hash) entries = .ok leaves ∧
        ∀ e ∈ entries, (Preimage.leaf e).Allowed allowed := by
  unfold leavesOf
  simp only [mapM_eq_ok_iff, leafOf_restricted]
  rw [and_comm, ← List.forall₂_and_left]
  simp only [and_comm]

theorem MiniTree.build_restricted {policy : OddPolicy} {entries : List Entry} {t : MiniTree} :
    build (.restricted hash allowed) policy entries = .ok t ↔
      build (.payloads hash) policy entries = .ok t ∧
        ∀ data ∈ t.hashed policy, allowed data = true := by
  unfold hashed
  rw [List.forall_mem_append, Preimage.forall_mem_allBytes, Preimage.forall_mem_allBytes,
    List.forall_mem_map]
  simp only [build, bind_eq_ok_iff, leavesOf_restricted, buildLevels_restricted]
  constructor
  · rintro ⟨leaves, ⟨hleaves, hentries⟩, levels, ⟨hlevels, hpairs⟩, h⟩
    cases h
    exact ⟨⟨leaves, hleaves, levels, hlevels, rfl⟩, hentries, hpairs⟩
  · rintro ⟨⟨leaves, hleaves, levels, hlevels, h⟩, hentries, hpairs⟩
    cases h
    exact ⟨leaves, ⟨hleaves, hentries⟩, levels, ⟨hlevels, hpairs⟩, rfl⟩

theorem Aggregator.build_restricted {upper : OddPolicy} {limit : Option Int} {roots : List Node}
    {trees : List MiniTree} {t : AggregateTree} :
    build ⟨.restricted hash allowed, upper, limit⟩ roots trees = .ok t ↔
      build ⟨.payloads hash, upper, limit⟩ roots trees = .ok t ∧
        ∀ p ∈ preimagesAbove upper t.levels, p.Allowed allowed := by
  -- With levels over the roots, both aggregations go the same way; a hasher without them builds nothing.
  have hsame : ∀ levels, buildLevels (.restricted hash allowed) upper roots = .ok levels →
      build ⟨.restricted hash allowed, upper, limit⟩ roots trees =
        build ⟨.payloads hash, upper, limit⟩ roots trees := by
    intro levels hlevels
    have hfull := (buildLevels_restricted.mp hlevels).1
    unfold build
    cases roots with
    | nil => rfl
    | cons first rest =>
        simp only [hlevels, hfull]
        rfl
  constructor
  · intro h
    have hlevels := (over_of_build h).levels
    rw [hsame t.levels hlevels] at h
    exact ⟨h, (buildLevels_restricted.mp hlevels).2⟩
  · rintro ⟨h, hallowed⟩
    rw [hsame t.levels (buildLevels_restricted.mpr ⟨(over_of_build h).levels, hallowed⟩)]
    exact h

theorem Aggregator.buildFromTrees_restricted {upper : OddPolicy} {limit : Option Int}
    {trees : List MiniTree} {t : AggregateTree} :
    buildFromTrees ⟨.restricted hash allowed, upper, limit⟩ trees = .ok t ↔
      buildFromTrees ⟨.payloads hash, upper, limit⟩ trees = .ok t ∧
        ∀ p ∈ preimagesAbove upper t.levels, p.Allowed allowed := by
  unfold buildFromTrees
  split
  · exact ⟨fun h => (nomatch h), fun h => (nomatch h.1)⟩
  · exact build_restricted

/-- Both layers of trees are built with a hash function defined on allowed bytes alone exactly when
all the bytes hashed for them are allowed. -/
theorem Aggregator.buildFromEntries_restricted {lower upper : OddPolicy} {limit : Option Int}
    {entries : List Entry} {executors : Int} {t : AggregateTree} :
    buildFromEntries ⟨.restricted hash allowed, upper, limit⟩ lower entries executors = .ok t ↔
      buildFromEntries ⟨.payloads hash, upper, limit⟩ lower entries executors = .ok t ∧
        ∀ data ∈ t.hashed lower upper, allowed data = true := by
  unfold AggregateTree.hashed
  rw [List.forall_mem_append, Preimage.forall_mem_allBytes, List.forall_mem_flatMap]
  simp only [buildFromEntries, bind_eq_ok_iff, mapM_eq_ok_iff, mapError_eq_ok_iff,
    MiniTree.build_restricted, forall₂_and_right]
  constructor
  · rintro ⟨chunks, hchunks, trees, ⟨htrees, hlower⟩, h⟩
    obtain ⟨h, hupper⟩ := buildFromTrees_restricted.mp h
    refine ⟨⟨chunks, hchunks, trees, htrees, h⟩, ?_, hupper⟩
    rw [(over_of_buildFromTrees h).miniTrees]
    exact hlower
  · rintro ⟨⟨chunks, hchunks, trees, htrees, h⟩, hlower, hupper⟩
    rw [(over_of_buildFromTrees h).miniTrees] at hlower
    exact ⟨chunks, hchunks, trees, ⟨htrees, hlower⟩, buildFromTrees_restricted.mpr ⟨h, hupper⟩⟩

end SumTree
