import SumTree.Proofs.Number.Decimal
import SumTree.Proofs.Tree.Aggregate
import SumTree.Proofs.Tree.Levels

/-!
# Which roots are refused

Roots are refused when there are none, when they come with another number of mini-trees, when they
have several widths, or when a total of theirs reaches the limit. With a hasher that never fails
there is no other reason (`Aggregator.refusals_of_build`).

The refusal of a total names it, and a number of too many digits cannot be named. So there is one more
way for an aggregation to end: the first total that reaches the limit is too long to be written, and
the refusal itself is refused, with a failure that is no error of a run.

## Main Definitions

* `Node.total` — the total of a column.
* `Aggregator.Orderly` — roots that could be aggregated if there were no limit.
* `Aggregator.Reaches` — the total of a column reaches the limit.
* `Aggregator.Unnamed` — the first total that reaches the limit is too long to be written.
-/

namespace SumTree

/-- The sum of what some nodes have in a column. -/
def Node.total (nodes : List Node) (column : Nat) : Int :=
  (nodes.map fun n => n.balances.getD column 0).sum

/-- The sums of nodes of one width are their totals, column by column. -/
theorem sums_eq_map_total {nodes : List Node} {width : Nat} (hne : nodes ≠ [])
    (huniform : Node.Uniform width nodes) :
    Node.sums nodes = (List.range width).map (Node.total nodes) := by
  have hrows : ∀ row ∈ nodes.map Node.balances, row.length = width := by
    intro row hrow
    obtain ⟨n, hn, rfl⟩ := List.mem_map.mp hrow
    exact huniform n hn
  rw [Node.sums, columnSums_eq_map (by simpa using hne) hrows]
  refine List.map_congr_left fun column _ => ?_
  rw [Node.total, List.map_map]
  rfl

/-- A column that no node has adds up to nothing. -/
theorem total_of_width_le {nodes : List Node} {width column : Nat}
    (huniform : Node.Uniform width nodes) (h : width ≤ column) : Node.total nodes column = 0 := by
  refine List.sum_eq_zero fun balance hbalance => ?_
  obtain ⟨n, hn, rfl⟩ := List.mem_map.mp hbalance
  refine List.getD_eq_default _ _ ?_
  have hwidth : n.balances.length = width := huniform n hn
  omega

namespace Aggregator

/-- Roots that could be aggregated if there were no limit: there are some, all of one width, and they
come with as many mini-trees as they are, if with any. -/
structure Orderly (roots : List Node) (trees : List MiniTree) : Prop where
  ne_nil : roots ≠ []
  count : trees = [] ∨ trees.length = roots.length
  width : ∀ n ∈ roots, ∀ m ∈ roots, n.width = m.width

/-- The total of a column does not fit into the number of bytes that is allowed. -/
def Reaches (a : Aggregator) (roots : List Node) (column : Nat) : Prop :=
  ∃ bytes, a.maxBytes? = some bytes ∧ (256 : Int) ^ bytes.toNat ≤ Node.total roots column

/-- The first total that reaches the limit has too many digits to be written. -/
def Unnamed (a : Aggregator) (roots : List Node) : Prop :=
  ∃ column, a.Reaches roots column ∧ (∀ j < column, ¬ a.Reaches roots j) ∧
    Decimal.fits (Node.total roots column) = false

/-! ### The range check -/

/-- The first number that is not below the limit is found with its position. -/
theorem firstBeyond_eq_some_iff {limit balance : Int} {numbers : List Int} {start column : Nat} :
    firstBeyond limit start numbers = some (column, balance) ↔
      ∃ i, column = start + i ∧ numbers[i]? = some balance ∧ limit ≤ balance ∧
        ∀ j < i, ∀ b, numbers[j]? = some b → b < limit := by
  induction numbers generalizing start with
  | nil => simp [firstBeyond]
  | cons first rest ih =>
      rw [firstBeyond]
      by_cases hfirst : limit ≤ first
      · rw [if_pos hfirst]
        constructor
        · rintro ⟨⟩
          exact ⟨0, rfl, rfl, hfirst, fun j hj => absurd hj (Nat.not_lt_zero j)⟩
        · rintro ⟨i, rfl, hbalance, -, hbelow⟩
          cases i with
          | zero =>
              cases hbalance
              rfl
          | succ i => exact absurd (hbelow 0 (Nat.succ_pos i) first rfl) (not_lt.mpr hfirst)
      · rw [if_neg hfirst, ih]
        constructor
        · rintro ⟨i, rfl, hbalance, hlimit, hbelow⟩
          refine ⟨i + 1, by omega, hbalance, hlimit, fun j hj b hb => ?_⟩
          cases j with
          | zero =>
              cases hb
              exact not_le.mp hfirst
          | succ j => exact hbelow j (Nat.lt_of_succ_lt_succ hj) b hb
        · rintro ⟨i, rfl, hbalance, hlimit, hbelow⟩
          cases i with
          | zero =>
              cases hbalance
              exact absurd hlimit hfirst
          | succ i =>
              refine ⟨i, by omega, hbalance, hlimit, fun j hj b hb => ?_⟩
              exact hbelow (j + 1) (Nat.succ_lt_succ hj) b hb

theorem firstBeyond_eq_none_iff {limit : Int} {numbers : List Int} {start : Nat} :
    firstBeyond limit start numbers = none ↔ ∀ b ∈ numbers, b < limit := by
  induction numbers generalizing start with
  | nil => simp [firstBeyond]
  | cons first rest ih =>
      rw [firstBeyond, List.forall_mem_cons]
      by_cases hfirst : limit ≤ first
      · rw [if_pos hfirst]
        exact iff_of_false (fun h => by cases h) fun h => absurd h.1 (not_lt.mpr hfirst)
      · rw [if_neg hfirst, ih]
        exact (and_iff_right (not_le.mp hfirst)).symm

/-- A number of bytes can be written if a number can that takes more of them. -/
theorem fits_bytes {bytes balance : Int} (hbytes : 0 ≤ bytes) (h : (256 : Int) ^ bytes.toNat ≤ balance)
    (hfits : Decimal.fits balance = true) : Decimal.fits bytes = true := by
  have hlt : (bytes.toNat : Int) < 256 ^ bytes.toNat := by
    exact_mod_cast Nat.lt_pow_self (by decide : 1 < 256)
  have hle : bytes.natAbs ≤ balance.natAbs := by omega
  rw [Decimal.fits, decide_eq_true_eq] at hfits ⊢
  exact Nat.lt_of_le_of_lt hle hfits

section

variable {a : Aggregator} {roots : List Node} {trees : List MiniTree} {width : Nat} {root : Node}

/-- What is found among the values of a function is the first of them that is not below the limit. -/
theorem firstBeyond_map_range_eq_some {limit balance : Int} {column width : Nat} {f : Nat → Int}
    (h : firstBeyond limit 0 ((List.range width).map f) = some (column, balance)) :
    balance = f column ∧ limit ≤ f column ∧ ∀ k < column, f k < limit := by
  obtain ⟨i, hi, hget, hlimit, hbelow⟩ := firstBeyond_eq_some_iff.mp h
  obtain rfl : column = i := by omega
  have hwidth : column < width := by
    have hlength := (List.getElem?_eq_some_iff.mp hget).1
    rwa [List.length_map, List.length_range] at hlength
  have hvalue : ∀ k < width, ((List.range width).map f)[k]? = some (f k) := by
    intro k hk
    rw [List.getElem?_map, List.getElem?_range hk, Option.map_some]
  obtain rfl : f column = balance := by
    rw [hvalue column hwidth] at hget
    exact Option.some.inj hget
  exact ⟨rfl, hlimit, fun k hk => hbelow k hk _ (hvalue k (hk.trans hwidth))⟩

theorem reaches_iff {bytes : Int} (hbytes : a.maxBytes? = some bytes) (column : Nat) :
    a.Reaches roots column ↔ (256 : Int) ^ bytes.toNat ≤ Node.total roots column := by
  rw [Reaches, hbytes]
  constructor
  · rintro ⟨found, ⟨⟩, h⟩
    exact h
  · exact fun h => ⟨bytes, rfl, h⟩

/-- A column that no root has adds up to zero, which is below every limit. -/
theorem lt_width_of_reaches {column : Nat} (huniform : Node.Uniform width roots)
    (h : a.Reaches roots column) : column < width := by
  obtain ⟨bytes, -, h⟩ := h
  by_contra hout
  rw [total_of_width_le huniform (not_lt.mp hout)] at h
  exact absurd h (not_le.mpr (by positivity))

/-- Whether the refusal can name its total is a matter of the first total that reaches the limit. -/
theorem unnamed_iff {column : Nat} (hreaches : a.Reaches roots column)
    (hbefore : ∀ k < column, ¬ a.Reaches roots k) :
    a.Unnamed roots ↔ Decimal.fits (Node.total roots column) = false := by
  constructor
  · rintro ⟨k, hk, hfirst, hunfit⟩
    obtain rfl : k = column := by
      rcases Nat.lt_trichotomy k column with h | h | h
      · exact absurd hk (hbefore k h)
      · exact h
      · exact absurd hreaches (hfirst column h)
    exact hunfit
  · exact fun hunfit => ⟨column, hreaches, hbefore, hunfit⟩

/-- How the range check judges a root that holds the totals of nodes of one width. -/
theorem checkRange_cases (hlimit : ∀ bytes, a.maxBytes? = some bytes → 0 ≤ bytes)
    (huniform : Node.Uniform width roots)
    (hroot : root.balances = (List.range width).map (Node.total roots)) :
    ((∀ column, ¬ a.Reaches roots column) ∧ a.checkRange root = .ok ()) ∨
      ((∃ column, a.Reaches roots column) ∧ ¬ a.Unnamed roots ∧
        ∃ fault, a.checkRange root = .error (.run (.aggregation fault))) ∨
      (a.Unnamed roots ∧ a.checkRange root = .error (.value .tooLongToWrite)) := by
  rw [checkRange]
  cases hbytes : a.maxBytes? with
  | none =>
      refine .inl ⟨fun column hreaches => ?_, rfl⟩
      obtain ⟨bytes, hsome, -⟩ := hreaches
      rw [hbytes] at hsome
      cases hsome
  | some bytes =>
      have hnonneg := hlimit bytes hbytes
      have hpow : ((Nat.pow 256 bytes.toNat : Nat) : Int) = 256 ^ bytes.toNat := by
        push_cast [Nat.pow_eq]
        rfl
      dsimp only
      rw [if_neg (not_lt.mpr hnonneg), hroot, hpow]
      cases hfound : firstBeyond (256 ^ bytes.toNat) 0 ((List.range width).map (Node.total roots)) with
      | none =>
          refine .inl ⟨fun column h => ?_, rfl⟩
          have hmem : Node.total roots column ∈ (List.range width).map (Node.total roots) :=
            List.mem_map_of_mem (List.mem_range.mpr (lt_width_of_reaches huniform h))
          exact absurd ((reaches_iff hbytes column).mp h)
            (not_le.mpr (firstBeyond_eq_none_iff.mp hfound _ hmem))
      | some found =>
          obtain ⟨column, balance⟩ := found
          obtain ⟨rfl, hbeyond, hbelow⟩ := firstBeyond_map_range_eq_some hfound
          have hreaches : a.Reaches roots column := (reaches_iff hbytes column).mpr hbeyond
          have hbefore : ∀ k < column, ¬ a.Reaches roots k := fun k hk h =>
            absurd ((reaches_iff hbytes k).mp h) (not_le.mpr (hbelow k hk))
          have hunnamed := unnamed_iff hreaches hbefore
          dsimp only
          cases hfits : Decimal.fits (Node.total roots column) with
          | true =>
              rw [fits_bytes hnonneg hbeyond hfits]
              rw [hfits] at hunnamed
              exact .inr (.inl ⟨⟨column, hreaches⟩, mt hunnamed.mp Bool.noConfusion, _, rfl⟩)
          | false =>
              rw [Bool.and_false]
              exact .inr (.inr ⟨hunnamed.mpr hfits, rfl⟩)

/-! ### The aggregation -/

/-- Roots that are not orderly are refused as such. -/
theorem exists_fault_of_not_orderly (a : Aggregator) (h : ¬ Orderly roots trees) :
    ∃ fault, a.build roots trees = .error (.run (.aggregation fault)) := by
  cases roots with
  | nil => exact ⟨_, rfl⟩
  | cons first rest =>
      rw [build]
      split
      · exact ⟨_, rfl⟩
      · rename_i hcount
        cases hmisfit : firstMisfit first.width 1 (rest.map Node.width) with
        | some found => exact ⟨_, rfl⟩
        | none =>
            have huniform : Node.Uniform first.width (first :: rest) :=
              List.forall_mem_cons.mpr ⟨rfl, uniform_of_firstMisfit_eq_none hmisfit⟩
            refine absurd ⟨List.cons_ne_nil _ _, ?_, fun n hn m hm => ?_⟩ h
            · simpa [or_iff_not_imp_left] using hcount
            · rw [huniform n hn, huniform m hm]

/-- Orderly roots have levels, and the range check on the totals decides. -/
theorem exists_build_eq_of_orderly (hhasher : a.hasher.Combines) (h : Orderly roots trees) :
    ∃ width root levels, Node.Uniform width roots ∧
      root.balances = (List.range width).map (Node.total roots) ∧
      a.build roots trees =
        (a.checkRange root).map fun _ => ⟨root, levels, treeDepth roots.length, trees⟩ := by
  obtain ⟨hne, hcount, hwidth⟩ := h
  cases roots with
  | nil => exact absurd rfl hne
  | cons first rest =>
      have huniform : Node.Uniform first.width (first :: rest) :=
        fun n hn => hwidth n hn first List.mem_cons_self
      obtain ⟨levels, hlevels, -⟩ := exists_tower hhasher a.policy hne huniform
      have hmisfit : firstMisfit first.width 1 (rest.map Node.width) = none :=
        firstMisfit_eq_none fun n hn => huniform n (List.mem_cons_of_mem first hn)
      have hkept : (!trees.isEmpty && trees.length != (first :: rest).length) = false := by
        rcases hcount with rfl | hcount
        · rfl
        · rw [hcount, bne_self_eq_false, Bool.and_false]
      refine ⟨first.width, rootOf levels, levels, huniform, ?_, ?_⟩
      · rw [(buildLevels_spec hlevels).2.2, sums_eq_map_total hne huniform]
      · rw [build, hkept, hmisfit]
        simp only [Bool.false_eq_true, if_false, hlevels]
        cases a.checkRange (rootOf levels) <;> rfl

/-- How an aggregation ends. -/
theorem build_cases (hhasher : a.hasher.Combines)
    (hlimit : ∀ bytes, a.maxBytes? = some bytes → 0 ≤ bytes) (roots : List Node)
    (trees : List MiniTree) :
    ((¬ Orderly roots trees ∨ (∃ column, a.Reaches roots column) ∧ ¬ a.Unnamed roots) ∧
        ∃ fault, a.build roots trees = .error (.run (.aggregation fault))) ∨
      (Orderly roots trees ∧ (∀ column, ¬ a.Reaches roots column) ∧
        ∃ t, a.build roots trees = .ok t) ∨
      (Orderly roots trees ∧ a.Unnamed roots ∧
        a.build roots trees = .error (.value .tooLongToWrite)) := by
  by_cases horderly : Orderly roots trees
  · obtain ⟨width, root, levels, huniform, hroot, hbuild⟩ :=
      exists_build_eq_of_orderly hhasher horderly
    rw [hbuild]
    rcases checkRange_cases hlimit huniform hroot with
      ⟨hbelow, hrange⟩ | ⟨hreaches, hnamed, fault, hrange⟩ | ⟨hunnamed, hrange⟩
    · rw [hrange]
      exact .inr (.inl ⟨horderly, hbelow, _, rfl⟩)
    · rw [hrange]
      exact .inl ⟨.inr ⟨hreaches, hnamed⟩, fault, rfl⟩
    · rw [hrange]
      exact .inr (.inr ⟨horderly, hunnamed, rfl⟩)
  · exact .inl ⟨.inl horderly, exists_fault_of_not_orderly a horderly⟩

end

end Aggregator

namespace Sample

end Sample

namespace Aggregator

end Aggregator

end SumTree
