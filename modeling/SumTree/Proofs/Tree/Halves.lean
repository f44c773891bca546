import SumTree.Proofs.Tree.Nesting
import SumTree.Proofs.Tree.Payload
import SumTree.Proofs.Tree.Refusals

/-!
# Sums that are too long to be hashed

What is hashed for a parent names the balances of both nodes beneath it, and a number of too many
digits cannot be named. The sums grow towards the root, whose own balances are not hashed, so the two
nodes beneath the root are those that matter: entries that can be hashed one by one have a tree exactly
when the totals of the two halves beneath the root can be written (`MiniTree.build_cases`).

The induction is on the levels, and its step is that the halves of a level have the sums of the halves
of the level below (`halves_of_nextLevel`).

## Main Definitions

* `Half.front`, `Half.back` — what stands beneath the first and the second node below the root.
* `Node.HalvesFit`, `Entry.HalvesFit` — the sums of both halves can be written.
-/

namespace SumTree

/-! ### Halves -/

namespace Half

variable {α β : Type}

/-- What stands beneath the first of the two nodes below the root: as many as there are, up to the
greatest power of two below their number. -/
def front (xs : List α) : List α :=
  xs.take (2 ^ (treeDepth xs.length - 1))

/-- What stands beneath the second of the two nodes below the root. -/
def back (xs : List α) : List α :=
  xs.drop (2 ^ (treeDepth xs.length - 1))

theorem front_append_back (xs : List α) : front xs ++ back xs = xs :=
  List.take_append_drop _ xs

theorem map_front (f : α → β) (xs : List α) : front (xs.map f) = (front xs).map f := by
  rw [front, front, List.length_map, List.map_take]

theorem map_back (f : α → β) (xs : List α) : back (xs.map f) = (back xs).map f := by
  rw [back, back, List.length_map, List.map_drop]

/-- Two leaves or more are more than a power of two, and at most twice as many. -/
theorem pow_lt_length {xs : List α} (h : 1 < xs.length) :
    2 ^ (treeDepth xs.length - 1) < xs.length := by
  have hdeep : 1 ≤ treeDepth xs.length := by
    rw [treeDepth_eq_succ h]
    omega
  have hnot := mt (treeDepth_le_iff xs.length (treeDepth xs.length - 1)).mpr (by omega)
  exact Nat.lt_of_not_le hnot

/-- The first half is the part of the power of two that precedes it. -/
theorem eq_of_append {xs front' back' : List α} (hjoined : xs = front' ++ back')
    (hlength : front'.length = 2 ^ (treeDepth xs.length - 1)) : front xs = front' ∧ back xs = back' := by
  rw [front, back, ← hlength, hjoined]
  exact ⟨List.take_left, List.drop_left⟩

end Half

/-- There are not two nodes below the root, or the sums of both can be written. -/
def Node.HalvesFit (level : List Node) : Prop :=
  level.length ≤ 1 ∨
    ∀ b ∈ Node.sums (Half.front level) ++ Node.sums (Half.back level), Decimal.fits b = true

/-- There are not two nodes below the root, or the totals of both can be written. -/
def Entry.HalvesFit (entries : List Entry) : Prop :=
  entries.length ≤ 1 ∨
    ∀ b ∈ Entry.totals (Half.front entries) ++ Entry.totals (Half.back entries),
      Decimal.fits b = true

/-! ### Sums and their parts -/

/-- A natural number can be written if one can that is no less. -/
theorem Decimal.fits_of_le {n m : Int} (hn : 0 ≤ n) (hle : n ≤ m) (h : fits m = true) :
    fits n = true := by
  simp only [fits, decide_eq_true_eq] at h ⊢
  omega

/-- Nodes without a balance below zero. -/
def Node.Nonneg (nodes : List Node) : Prop :=
  ∀ n ∈ nodes, ∀ b ∈ n.balances, 0 ≤ b

/-- Among nodes without a balance below zero no balance is greater than all sums. -/
theorem exists_sum_ge {nodes : List Node} {width : Nat} (huniform : Node.Uniform width nodes)
    (hnonneg : Node.Nonneg nodes) {n : Node} (hn : n ∈ nodes) {b : Int} (hb : b ∈ n.balances) :
    ∃ sum ∈ Node.sums nodes, b ≤ sum := by
  obtain ⟨column, hcolumn, rfl⟩ := List.mem_iff_getElem.mp hb
  have hwidth : n.balances.length = width := huniform n hn
  have hlisted : ∀ m ∈ nodes, 0 ≤ m.balances.getD column 0 := by
    intro m hm
    have hinside : column < m.balances.length := by
      have hwidth' : m.balances.length = width := huniform m hm
      omega
    rw [List.getD_eq_getElem _ _ hinside]
    exact hnonneg m hm _ (List.getElem_mem hinside)
  refine ⟨Node.total nodes column, ?_, ?_⟩
  · rw [sums_eq_map_total (List.ne_nil_of_mem hn) huniform]
    exact List.mem_map_of_mem (List.mem_range.mpr (by omega))
  · rw [← List.getD_eq_getElem _ 0 hcolumn]
    refine List.single_le_sum (fun balance hbalance => ?_) _
      (List.mem_map_of_mem (f := fun m : Node => m.balances.getD column 0) hn)
    obtain ⟨m, hm, rfl⟩ := List.mem_map.mp hbalance
    exact hlisted m hm

/-- Nodes whose sums can be written have balances that can be. -/
theorem fits_of_fits_sums {nodes : List Node} {width : Nat} (huniform : Node.Uniform width nodes)
    (hnonneg : Node.Nonneg nodes) (h : ∀ b ∈ Node.sums nodes, Decimal.fits b = true) :
    ∀ n ∈ nodes, ∀ b ∈ n.balances, Decimal.fits b = true := by
  intro n hn b hb
  obtain ⟨sum, hsum, hle⟩ := exists_sum_ge huniform hnonneg hn hb
  exact Decimal.fits_of_le (hnonneg n hn b hb) hle (h sum hsum)

theorem fits_of_halvesFit {level : List Node} {width : Nat} (huniform : Node.Uniform width level)
    (hnonneg : Node.Nonneg level)
    (h : ∀ b ∈ Node.sums (Half.front level) ++ Node.sums (Half.back level), Decimal.fits b = true) :
    ∀ n ∈ level, ∀ b ∈ n.balances, Decimal.fits b = true := by
  obtain ⟨hfront, hback⟩ := List.forall_mem_append.mp h
  intro n hn
  rw [← Half.front_append_back level] at hn
  have hall : ∀ m ∈ Half.front level ++ Half.back level, m ∈ level := by
    rw [Half.front_append_back]
    exact fun m hm => hm
  have hparts := List.forall_mem_append.mp hall
  rcases List.mem_append.mp hn with hn | hn
  · exact fits_of_fits_sums (fun m hm => huniform m (hparts.1 m hm))
      (fun m hm => hnonneg m (hparts.1 m hm)) hfront n hn
  · exact fits_of_fits_sums (fun m hm => huniform m (hparts.2 m hm))
      (fun m hm => hnonneg m (hparts.2 m hm)) hback n hn

/-! ### One level -/

section

variable {hash : List UInt8 → Digest} {hasher : Hasher} {policy : OddPolicy} {width : Nat}

/-- Two nodes of one width are combined exactly when their balances can be written. -/
theorem exists_combineNodes_iff (hash : List UInt8 → Digest) {left right : Node}
    (hwidth : left.width = right.width) :
    (∃ parent, combineNodes (.payloads hash) left right = .ok parent) ↔
      ∀ b ∈ left.balances ++ right.balances, Decimal.fits b = true := by
  unfold combineNodes
  rw [if_neg (by simpa using hwidth), Hasher.payloads_combine]
  constructor
  · rintro ⟨parent, h⟩
    obtain ⟨digest, hdigest, -⟩ := exists_of_bind_eq_ok h
    obtain ⟨data, hdata, -⟩ := exists_of_map_eq_ok (mapError_eq_ok_iff.mp hdigest)
    obtain ⟨-, -, -, hfits⟩ := Preimage.exists_text_of_bytes hdata
    exact hfits
  · intro hfits
    obtain ⟨data, hdata⟩ := Preimage.exists_bytes (p := .parent left right) hfits
    rw [hdata]
    exact ⟨_, rfl⟩

/-- There is a level above nodes whose balances can be written. -/
theorem exists_nextLevel_of_fits (hash : List UInt8 → Digest) (policy : OddPolicy) {level : List Node}
    (huniform : Node.Uniform width level)
    (hfits : ∀ n ∈ level, ∀ b ∈ n.balances, Decimal.fits b = true) :
    ∃ parents, nextLevel (.payloads hash) policy width level = .ok parents := by
  fun_induction nextLevel (.payloads hash) policy width level with
  | case1 => exact ⟨_, rfl⟩
  | case2 last => exact ⟨_, rfl⟩
  | case3 last =>
      have hlast : last.width = width := huniform last List.mem_cons_self
      obtain ⟨parent, hparent⟩ :=
        (exists_combineNodes_iff hash (hlast.trans (width_paddingFor last).symm)).mpr
          (List.forall_mem_append.mpr ⟨hfits last List.mem_cons_self, fun b hb => by
            rw [List.eq_of_mem_replicate hb]
            exact Decimal.fits_of_lt_pow (n := 0) (k := 1) (by decide) (by decide)⟩)
      rw [hparent]
      exact ⟨_, rfl⟩
  | case4 left right rest ih =>
      have hright : right ∈ left :: right :: rest := List.mem_cons_of_mem left List.mem_cons_self
      obtain ⟨parent, hparent⟩ := (exists_combineNodes_iff hash
        ((huniform left List.mem_cons_self).trans (huniform right hright).symm)).mpr
          (List.forall_mem_append.mpr ⟨hfits left List.mem_cons_self, hfits right hright⟩)
      obtain ⟨parents, hparents⟩ := ih
        (fun n hn => huniform n (List.mem_cons_of_mem left (List.mem_cons_of_mem right hn)))
        (fun n hn => hfits n (List.mem_cons_of_mem left (List.mem_cons_of_mem right hn)))
      rw [hparent, hparents]
      exact ⟨_, rfl⟩

/-- The level above nodes without a balance below zero has none either. -/
theorem nonneg_of_nextLevel {level parents : List Node}
    (h : nextLevel hasher policy width level = .ok parents) (hnonneg : Node.Nonneg level) :
    Node.Nonneg parents :=
  forall_of_nextLevel (fun _ hn => hn) (fun n => nonneg_paddingFor n width)
    (fun _ _ _ hparent hleft hright => nonneg_of_combineNodes hparent hleft hright) h hnonneg

/-- Nodes behind an even number of others are paired without these. -/
theorem exists_of_nextLevel_append {front back parents : List Node} (heven : front.length % 2 = 0)
    (h : nextLevel hasher policy width (front ++ back) = .ok parents) :
    ∃ lower upper, nextLevel hasher policy width front = .ok lower ∧
      nextLevel hasher policy width back = .ok upper ∧ parents = lower ++ upper := by
  fun_induction nextLevel hasher policy width front generalizing parents with
  | case1 => exact ⟨[], parents, rfl, h, rfl⟩
  | case2 last => exact absurd heven (by simp)
  | case3 last => exact absurd heven (by simp)
  | case4 left right rest ih =>
      have hrest : rest.length % 2 = 0 := by
        simp only [List.length_cons] at heven
        omega
      change nextLevel hasher policy width (left :: right :: (rest ++ back)) = .ok parents at h
      rw [nextLevel] at h
      obtain ⟨parent, hparent, h⟩ := exists_of_bind_eq_ok h
      obtain ⟨others, hothers, h⟩ := exists_of_bind_eq_ok h
      cases h
      obtain ⟨lower, upper, hlower, hupper, rfl⟩ := ih hrest hothers
      rw [hparent, hlower]
      exact ⟨parent :: lower, upper, rfl, hupper, rfl⟩

/-- The halves of the level above have the sums of the halves, where there are more than two nodes. -/
theorem halves_of_nextLevel {level parents : List Node}
    (h : nextLevel hasher policy width level = .ok parents) (huniform : Node.Uniform width level)
    (hmany : 2 < level.length) :
    Node.sums (Half.front parents) = Node.sums (Half.front level) ∧
      Node.sums (Half.back parents) = Node.sums (Half.back level) := by
  obtain ⟨hlength, -, -⟩ := nextLevel_spec h huniform
  -- The first half is a power of two of at least two nodes, so it is paired without the second.
  have hdepth : treeDepth level.length = treeDepth parents.length + 1 := by
    rw [treeDepth_eq_succ (by omega), hlength]
  have hdepth' : 1 ≤ treeDepth parents.length := by
    rw [treeDepth_eq_succ (by omega)]
    omega
  have hsize : 2 ^ (treeDepth level.length - 1) = 2 * 2 ^ (treeDepth parents.length - 1) := by
    rw [hdepth, ← Nat.pow_succ']
    congr 1
    omega
  have hfront : (Half.front level).length = 2 ^ (treeDepth level.length - 1) := by
    rw [Half.front, List.length_take]
    exact Nat.min_eq_left (Half.pow_lt_length (by omega)).le
  rw [← Half.front_append_back level] at h
  obtain ⟨lower, upper, hlower, hupper, hjoined⟩ := exists_of_nextLevel_append (by omega) h
  rw [← Half.front_append_back level] at huniform
  obtain ⟨huniform₁, huniform₂⟩ := List.forall_mem_append.mp huniform
  obtain ⟨hlength₁, -, hsums₁⟩ := nextLevel_spec hlower huniform₁
  obtain ⟨-, -, hsums₂⟩ := nextLevel_spec hupper huniform₂
  obtain ⟨hparts₁, hparts₂⟩ := Half.eq_of_append hjoined (by omega)
  rw [hparts₁, hparts₂]
  exact ⟨hsums₁, hsums₂⟩

end

/-! ### All levels -/

section

variable {hash : List UInt8 → Digest} {policy : OddPolicy} {width : Nat}

/-- There are levels over some nodes exactly when the sums of both halves can be written. -/
theorem exists_levelsFrom_iff (hash : List UInt8 → Digest) (policy : OddPolicy) {fuel : Nat}
    {level : List Node} (hne : level ≠ []) (hfuel : level.length ≤ fuel)
    (huniform : Node.Uniform width level) (hnonneg : Node.Nonneg level) :
    (∃ levels, levelsFrom (.payloads hash) policy width fuel level = .ok levels) ↔
      Node.HalvesFit level := by
  induction fuel generalizing level with
  | zero => exact absurd (List.length_eq_zero_iff.mp (Nat.le_zero.mp hfuel)) hne
  | succ fuel ih =>
      rw [levelsFrom, Node.HalvesFit]
      by_cases hsingle : level.length ≤ 1
      · rw [if_pos hsingle]
        exact iff_of_true ⟨_, rfl⟩ (.inl hsingle)
      · rw [if_neg hsingle, or_iff_right hsingle]
        have habove : ∀ parents, nextLevel (.payloads hash) policy width level = .ok parents →
            ((∃ levels, levelsFrom (.payloads hash) policy width fuel parents = .ok levels) ↔
              Node.HalvesFit parents) := by
          intro parents hparents
          obtain ⟨hlength, huniform', -⟩ := nextLevel_spec hparents huniform
          refine ih ?_ (by omega) huniform' (nonneg_of_nextLevel hparents hnonneg)
          rw [← List.length_pos_iff]
          omega
        constructor
        · rintro ⟨levels, h⟩
          obtain ⟨parents, hparents, h⟩ := exists_of_bind_eq_ok h
          obtain ⟨above, hlevels, -⟩ := exists_of_bind_eq_ok h
          obtain ⟨hlength, -, -⟩ := nextLevel_spec hparents huniform
          by_cases hpair : level.length = 2
          · -- The two nodes are the halves, and they have been combined.
            obtain ⟨left, right, rfl⟩ := List.length_eq_two.mp hpair
            rw [nextLevel] at hparents
            obtain ⟨parent, hparent, -⟩ := exists_of_bind_eq_ok hparents
            exact (exists_combineNodes_iff hash (balances_combineNodes hparent).1).mp ⟨parent, hparent⟩
          · obtain ⟨hfront, hback⟩ := halves_of_nextLevel hparents huniform (by omega)
            rcases (habove parents hparents).mp ⟨above, hlevels⟩ with hone | hfits
            · omega
            · rw [hfront, hback] at hfits
              exact hfits
        · intro hfits
          obtain ⟨parents, hparents⟩ := exists_nextLevel_of_fits hash policy huniform
            (fits_of_halvesFit huniform hnonneg hfits)
          obtain ⟨hlength, -, -⟩ := nextLevel_spec hparents huniform
          have hfits' : Node.HalvesFit parents := by
            by_cases hpair : level.length = 2
            · exact .inl (by omega)
            · obtain ⟨hfront, hback⟩ := halves_of_nextLevel hparents huniform (by omega)
              rw [Node.HalvesFit, hfront, hback]
              exact .inr hfits
          obtain ⟨above, hlevels⟩ := (habove parents hparents).mpr hfits'
          rw [hparents]
          simp only [bind, Except.bind, hlevels]
          exact ⟨_, rfl⟩

theorem nonneg_leaves {hasher : Hasher} {entries : List Entry} {leaves : List Node}
    (h : leavesOf hasher entries = .ok leaves) : Node.Nonneg leaves := by
  intro leaf hleaf b hb
  have hmem : leaf.balances ∈ entries.map Entry.amounts := by
    rw [← balances_of_leavesOf h]
    exact List.mem_map_of_mem hleaf
  obtain ⟨e, -, heq⟩ := List.mem_map.mp hmem
  rw [← heq] at hb
  obtain ⟨n, -, rfl⟩ := List.mem_map.mp hb
  exact Int.natCast_nonneg n

/-- The halves of the leaves have the totals of the halves of the entries. -/
theorem halvesFit_leaves_iff {hasher : Hasher} {entries : List Entry} {leaves : List Node}
    (h : leavesOf hasher entries = .ok leaves) : Node.HalvesFit leaves ↔ Entry.HalvesFit entries := by
  have hbalances := balances_of_leavesOf h
  have hlength : leaves.length = entries.length := by
    simpa using congrArg List.length hbalances
  have hfront : Node.sums (Half.front leaves) = Entry.totals (Half.front entries) := by
    rw [Node.sums, ← Half.map_front, hbalances, Half.map_front, Entry.totals]
  have hback : Node.sums (Half.back leaves) = Entry.totals (Half.back entries) := by
    rw [Node.sums, ← Half.map_back, hbalances, Half.map_back, Entry.totals]
  rw [Node.HalvesFit, Entry.HalvesFit, hlength, hfront, hback]

/-- Entries that can be hashed have leaves. -/
theorem exists_leavesOf (hash : List UInt8 → Digest) {entries : List Entry}
    (hfits : ∀ e ∈ entries, ∀ b ∈ e.amounts, Decimal.fits b = true) :
    ∃ leaves, leavesOf (.payloads hash) entries = .ok leaves := by
  apply exists_mapM_eq_ok
  intro e he
  obtain ⟨data, hdata⟩ := Preimage.exists_bytes (p := .leaf e) (hfits e he)
  rw [leafOf, Hasher.payloads_leaf, hdata]
  exact ⟨_, rfl⟩

theorem tooLong_of_balanceTexts {balances : List Int} {fault : ValueFault}
    (h : Hasher.balanceTexts balances = .error fault) : fault = .tooLongToWrite := by
  obtain ⟨b, -, hb⟩ := exists_of_mapM_eq_error h
  cases htext : Decimal.text b with
  | ok text =>
      rw [htext] at hb
      cases hb
  | error found =>
      rw [htext] at hb
      cases hb
      exact (Decimal.of_text_eq_error htext).2

/-- Two nodes cannot be hashed for no other reason than that a balance is too long. -/
theorem tooLong_of_combine {left right : Node} {fault : TreeFault}
    (h : (Hasher.payloads hash).combine left right = .error fault) :
    fault = .value .tooLongToWrite := by
  rw [Hasher.payloads_combine, Preimage.bytes, Preimage.payload, Hasher.parentPayload] at h
  cases hleft : Hasher.balanceTexts left.balances with
  | error found =>
      rw [hleft] at h
      cases h
      exact congrArg TreeFault.value (tooLong_of_balanceTexts hleft)
  | ok lefts =>
      cases hright : Hasher.balanceTexts right.balances with
      | error found =>
          rw [hleft, hright] at h
          cases h
          exact congrArg TreeFault.value (tooLong_of_balanceTexts hright)
      | ok rights =>
          rw [hleft, hright] at h
          simp only [bind, Except.bind, pure, Except.pure, Hasher.payloadBytes] at h
          split at h
          · cases h
          · cases h
            rfl

/-- Entries of one width that can be hashed one by one have a tree exactly when the totals of both
halves can be written; otherwise it is for a total of too many digits that there is none. -/
theorem MiniTree.build_cases (hash : List UInt8 → Digest) (policy : OddPolicy)
    {entries : List Entry} (hne : entries ≠ []) (hwidth : ∀ e ∈ entries, e.width = width)
    (hfits : ∀ e ∈ entries, ∀ b ∈ e.amounts, Decimal.fits b = true) :
    (Entry.HalvesFit entries ∧ ∃ t, build (.payloads hash) policy entries = .ok t) ∨
      ¬ Entry.HalvesFit entries ∧
        build (.payloads hash) policy entries = .error (.value .tooLongToWrite) := by
  obtain ⟨leaves, hleaves⟩ := exists_leavesOf hash hfits
  have hwidths := widths_of_leavesOf hleaves
  have huniform : Node.Uniform width leaves := by
    intro leaf hleaf
    have hmem : leaf.width ∈ entries.map Entry.width := by
      rw [← hwidths]
      exact List.mem_map_of_mem hleaf
    obtain ⟨e, he, heq⟩ := List.mem_map.mp hmem
    exact heq ▸ hwidth e he
  have hne' : leaves ≠ [] := by
    rintro rfl
    exact hne (List.map_eq_nil_iff.mp hwidths.symm)
  have hiff := exists_levelsFrom_iff hash policy hne' le_rfl huniform
    (nonneg_leaves hleaves)
  rw [halvesFit_leaves_iff hleaves, ← buildLevels_eq hne' huniform] at hiff
  rw [build, hleaves]
  simp only [bind, Except.bind, pure, Except.pure]
  cases hlevels : buildLevels (.payloads hash) policy leaves with
  | ok levels => exact .inl ⟨hiff.mp ⟨levels, hlevels⟩, _, rfl⟩
  | error fault =>
      refine .inr ⟨fun h => ?_, ?_⟩
      · obtain ⟨levels, h⟩ := hiff.mpr h
        rw [hlevels] at h
        cases h
      · rw [buildLevels_eq hne' huniform] at hlevels
        obtain ⟨left, right, -, hfault⟩ := fault_of_levelsFrom hlevels huniform
        rw [tooLong_of_combine hfault]

end

end SumTree
