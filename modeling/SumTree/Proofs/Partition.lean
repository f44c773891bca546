import Mathlib.Data.List.Basic
import Mathlib.Data.List.Chain
import Mathlib.Data.List.Range
import Mathlib.Data.Nat.Basic
import Mathlib.Order.Monotone.Basic
import SumTree.Partition

/-!
# Chunks of a partition

A successful partition loses nothing: its chunks, put one after the other, are the entries
(`flatten_of_chunks`). There are as many as executors were asked for, but no more than entries, and
none is empty. The sizes follow from one equation, `offset_succ`: from the start of a chunk to the next
lie the items of an even division, and one more in the first chunks.

Only entries that are missing or of several widths and a number of executors below one are refused
(`exists_chunks_iff`); `shape_of_chunks` puts all of this together.

## Main Definitions

* `Partition.offset` — where a chunk starts, as a natural number.
* `Partition.Uniform` — entries of one number of columns.
* `Partition.Tiles` — intervals that cover a range without a gap.
-/

namespace SumTree

namespace Partition

/-- Entries of one number of columns. -/
def Uniform (width : Nat) (entries : List Entry) : Prop :=
  ∀ e ∈ entries, e.width = width

/-- No entry is found of another width exactly when all are of the one that is expected. -/
theorem misfit_eq_none_iff {width position : Nat} {entries : List Entry} :
    checkEntries.misfit width position entries = none ↔ Uniform width entries := by
  induction entries generalizing position with
  | nil => simp [checkEntries.misfit, Uniform]
  | cons first rest ih =>
      rw [checkEntries.misfit, Uniform, List.forall_mem_cons]
      split
      · rename_i hfirst
        rw [ih]
        exact (and_iff_right (beq_iff_eq.mp hfirst)).symm
      · rename_i hfirst
        exact iff_of_false (Option.some_ne_none _) fun h => hfirst (beq_iff_eq.mpr h.1)

/-- Entries that pass the check are there, and of the number of columns that it gives. -/
theorem uniform_of_checkEntries {entries : List Entry} {width : Nat}
    (h : checkEntries entries = .ok width) : entries ≠ [] ∧ Uniform width entries := by
  cases entries with
  | nil => cases h
  | cons first rest =>
      rw [checkEntries] at h
      split at h
      · cases h
      · rename_i hmisfit
        cases h
        refine ⟨List.cons_ne_nil first rest, fun e he => ?_⟩
        rcases List.mem_cons.mp he with rfl | hrest
        · rfl
        · exact misfit_eq_none_iff.mp hmisfit e hrest

/-- Entries pass the check exactly when they are there and of one number of columns. -/
theorem exists_checkEntries_iff {entries : List Entry} :
    (∃ width, checkEntries entries = .ok width) ↔ entries ≠ [] ∧ ∃ width, Uniform width entries := by
  constructor
  · rintro ⟨width, h⟩
    exact ⟨(uniform_of_checkEntries h).1, width, (uniform_of_checkEntries h).2⟩
  · rintro ⟨hne, width, huniform⟩
    obtain ⟨first, rest, rfl⟩ := List.exists_cons_of_ne_nil hne
    obtain ⟨hfirst, hrest⟩ := List.forall_mem_cons.mp huniform
    refine ⟨first.width, ?_⟩
    rw [checkEntries, hfirst, misfit_eq_none_iff.mpr hrest]

theorem exists_uniform_iff {entries : List Entry} :
    (∃ width, Uniform width entries) ↔ ∀ e ∈ entries, ∀ e' ∈ entries, e.width = e'.width := by
  constructor
  · rintro ⟨width, huniform⟩ e he e' he'
    rw [huniform e he, huniform e' he']
  · intro h
    cases entries with
    | nil => exact ⟨0, fun e he => absurd he List.not_mem_nil⟩
    | cons first rest => exact ⟨first.width, fun e he => h e he first List.mem_cons_self⟩

/-! ### Where chunks start -/

/-- Where chunk `index` of `count` chunks over `total` items starts. -/
def offset (total count index : Nat) : Nat :=
  index * (total / count) + min index (total % count)

theorem start_eq_offset (total count index : Nat) :
    start total count index = offset total count index := by
  have hdiv : (total : Int).fdiv count = ((total / count : Nat) : Int) := by
    rw [Int.fdiv_eq_ediv_of_nonneg _ (Int.natCast_nonneg count), Int.natCast_ediv]
  have hmod : (total : Int).fmod count = ((total % count : Nat) : Int) := by
    rw [Int.fmod_eq_emod_of_nonneg _ (Int.natCast_nonneg count), Int.natCast_emod]
  rw [start, offset, hdiv, hmod]
  push_cast
  omega

@[simp] theorem offset_zero (total count : Nat) : offset total count 0 = 0 := by
  simp [offset]

/-- The last chunk ends where the items do. -/
theorem offset_count {count : Nat} (hcount : 0 < count) (total : Nat) :
    offset total count count = total := by
  have hlt : total % count < count := Nat.mod_lt total hcount
  rw [offset, min_eq_right hlt.le, Nat.div_add_mod]

/-- From one start to the next lie the items of an even division, and perhaps one more. -/
theorem offset_succ (total count index : Nat) :
    offset total count (index + 1) =
      offset total count index + total / count + (if index < total % count then 1 else 0) := by
  rw [offset, offset, Nat.succ_mul]
  split <;> omega

theorem offset_monotone (total count : Nat) : Monotone (offset total count) := by
  refine monotone_nat_of_le_succ fun index => ?_
  rw [offset_succ, Nat.add_assoc]
  exact Nat.le_add_right _ _

/-- The slice of a chunk has the items of an even division, and one more in the first chunks. -/
theorem length_slice {α : Type} (items : List α) {count index : Nat} (hindex : index < count) :
    ((items.take (offset items.length count (index + 1))).drop
        (offset items.length count index)).length =
      items.length / count + if index < items.length % count then 1 else 0 := by
  have hstep := offset_succ items.length count index
  have hend : offset items.length count (index + 1) ≤ items.length := by
    have hmono := offset_monotone items.length count (Nat.succ_le_of_lt hindex)
    rwa [offset_count (Nat.zero_lt_of_lt hindex)] at hmono
  rw [List.length_drop, List.length_take, min_eq_left hend, hstep, Nat.add_assoc,
    Nat.add_sub_cancel_left]

/-- Slices that each start where the one before ends make up a front of the list. -/
theorem flatten_slices {α : Type} {bound : Nat → Nat} (hzero : bound 0 = 0)
    (hmono : Monotone bound) (items : List α) (count : Nat) :
    ((List.range count).map fun i => (items.take (bound (i + 1))).drop (bound i)).flatten =
      items.take (bound count) := by
  induction count with
  | zero => simp [hzero]
  | succ count ih =>
      have hle : bound count ≤ bound (count + 1) := hmono (Nat.le_succ count)
      -- The front that the induction gives is a front of the longer one.
      have hfront : items.take (bound count) =
          (items.take (bound (count + 1))).take (bound count) := by
        rw [List.take_take, min_eq_left hle]
      rw [List.range_succ, List.map_append, List.flatten_append, ih, hfront]
      simp only [List.map_cons, List.map_nil, List.flatten_cons, List.flatten_nil, List.append_nil]
      exact List.take_append_drop (bound count) (items.take (bound (count + 1)))

theorem chunkCount_pos {entries : List Entry} {executors : Int} (hexecutors : 1 ≤ executors)
    (hentries : entries ≠ []) : 0 < chunkCount entries executors := by
  have hlength : 0 < entries.length := List.length_pos_iff.mpr hentries
  rw [chunkCount]
  omega

/-- The chunks, cut at the offsets. -/
theorem chunks_eq_slices {entries : List Entry} {executors : Int} {chunks : List (List Entry)}
    (h : Partition.chunks entries executors = .ok chunks) :
    1 ≤ executors ∧ (∃ width, checkEntries entries = .ok width) ∧
      chunks = (List.range (chunkCount entries executors)).map fun i =>
        (entries.take (offset entries.length (chunkCount entries executors) (i + 1))).drop
          (offset entries.length (chunkCount entries executors) i) := by
  rw [Partition.chunks] at h
  split at h
  · split at h <;> cases h
  · rename_i hexecutors
    have hone : 1 ≤ executors := Int.not_lt.mp hexecutors
    cases hcheck : checkEntries entries with
    | error fault => simp [hcheck] at h
    | ok width =>
        have hpos : 0 < chunkCount entries executors :=
          chunkCount_pos hone (uniform_of_checkEntries hcheck).1
        refine ⟨hone, ⟨width, rfl⟩, ?_⟩
        simp only [hcheck, Except.ok.injEq] at h
        rw [← h, bounds]
        have hne : ((chunkCount entries executors : Int) == 0) = false := by
          simpa using hpos.ne'
        rw [hne]
        simp only [Bool.false_eq_true, if_false, Option.getD_some, Int.toNat_natCast, List.map_map]
        refine List.map_congr_left fun i _ => ?_
        have hbound := start_eq_offset entries.length (chunkCount entries executors)
        simp only [Function.comp_apply, slice, hbound, Int.toNat_natCast]

/-- The errors of a run with which a partition fails are all about the entries. -/
theorem exists_fault_of_chunks {entries : List Entry} {executors : Int} {e : RunError}
    (h : Partition.chunks entries executors = .error (.run e)) : ∃ fault, e = .entries fault := by
  rw [Partition.chunks] at h
  split at h
  · split at h
    · cases h
      exact ⟨_, rfl⟩
    · cases h
  · split at h
    · cases h
      exact ⟨_, rfl⟩
    · cases h

/-! ### The chunks -/

section

variable {entries : List Entry} {executors : Int} {chunks : List (List Entry)}

theorem length_of_chunks (h : Partition.chunks entries executors = .ok chunks) :
    chunks.length = chunkCount entries executors := by
  rw [(chunks_eq_slices h).2.2, List.length_map, List.length_range]

/-- The entries that chunks are made of are there, and of one number of columns. -/
theorem uniform_of_chunks (h : Partition.chunks entries executors = .ok chunks) :
    entries ≠ [] ∧ ∃ width, Uniform width entries := by
  obtain ⟨-, ⟨width, hcheck⟩, -⟩ := chunks_eq_slices h
  exact ⟨(uniform_of_checkEntries hcheck).1, width, (uniform_of_checkEntries hcheck).2⟩

theorem chunkCount_pos_of_chunks (h : Partition.chunks entries executors = .ok chunks) :
    0 < chunkCount entries executors :=
  chunkCount_pos (chunks_eq_slices h).1 (uniform_of_chunks h).1

/-- The chunks, one after the other, are the entries. -/
theorem flatten_of_chunks (h : Partition.chunks entries executors = .ok chunks) :
    chunks.flatten = entries := by
  rw [(chunks_eq_slices h).2.2,
    flatten_slices (offset_zero _ _) (offset_monotone entries.length _),
    offset_count (chunkCount_pos_of_chunks h), List.take_length]

/-- The sizes of the chunks: the first ones have one item more than the others. -/
theorem lengths_of_chunks (h : Partition.chunks entries executors = .ok chunks) :
    chunks.map List.length =
      List.replicate (entries.length % chunks.length) (entries.length / chunks.length + 1) ++
        List.replicate (chunks.length - entries.length % chunks.length)
          (entries.length / chunks.length) := by
  have hlength := length_of_chunks h
  have hmod : entries.length % chunks.length ≤ chunks.length := by
    rw [hlength]
    exact (Nat.mod_lt _ (chunkCount_pos_of_chunks h)).le
  rw [(chunks_eq_slices h).2.2, List.map_map, ← hlength, List.length_map, List.length_range]
  refine List.ext_getElem (by simp [Nat.add_sub_cancel' hmod]) fun i hi _ => ?_
  rw [List.length_map, List.length_range] at hi
  rw [List.getElem_map, List.getElem_range, Function.comp_apply, length_slice _ hi,
    List.getElem_append]
  simp only [List.length_replicate, List.getElem_replicate]
  split <;> rfl

/-- No chunk is empty. -/
theorem ne_nil_of_mem_chunks (h : Partition.chunks entries executors = .ok chunks)
    {chunk : List Entry} (hchunk : chunk ∈ chunks) : chunk ≠ [] := by
  have hpos := chunkCount_pos_of_chunks h
  rw [(chunks_eq_slices h).2.2, List.mem_map] at hchunk
  obtain ⟨i, hi, rfl⟩ := hchunk
  have hcount : chunkCount entries executors ≤ entries.length := Nat.min_le_right _ _
  -- There are no more chunks than entries, so an even division leaves an entry for each.
  have hsize : 1 ≤ entries.length / chunkCount entries executors :=
    (Nat.one_le_div_iff hpos).mpr hcount
  rw [← List.length_pos_iff, length_slice entries (List.mem_range.mp hi)]
  omega

/-! ### Refusals -/

/-- There are chunks exactly when the entries are there and of one width, for at least one executor. -/
theorem exists_chunks_iff : (∃ chunks, Partition.chunks entries executors = .ok chunks) ↔
    1 ≤ executors ∧ entries ≠ [] ∧ ∃ width, Uniform width entries := by
  constructor
  · rintro ⟨chunks, h⟩
    exact ⟨(chunks_eq_slices h).1, uniform_of_chunks h⟩
  · rintro ⟨hone, hentries⟩
    obtain ⟨width, hcheck⟩ := exists_checkEntries_iff.mpr hentries
    rw [Partition.chunks, if_neg (not_lt.mpr hone), hcheck]
    exact ⟨_, rfl⟩

theorem exists_chunks_iff_not : (∃ chunks, Partition.chunks entries executors = .ok chunks) ↔
    ¬ (executors < 1 ∨ entries = [] ∨ ∃ e ∈ entries, ∃ e' ∈ entries, e.width ≠ e'.width) := by
  rw [exists_chunks_iff, exists_uniform_iff]
  push Not
  rfl

/-- For a number of executors that can be written there are chunks, or there is a refusal that is about
the entries or that number. -/
theorem exists_fault_iff_not_exists_chunks (hfits : Decimal.fits executors = true) :
    (∃ fault, Partition.chunks entries executors = .error (.run (.entries fault))) ↔
      ¬ ∃ chunks, Partition.chunks entries executors = .ok chunks := by
  constructor
  · rintro ⟨fault, h⟩ ⟨chunks, hchunks⟩
    rw [hchunks] at h
    cases h
  · intro hnone
    rw [exists_chunks_iff] at hnone
    rw [Partition.chunks, hfits]
    split
    · exact ⟨_, rfl⟩
    · rename_i hexecutors
      cases hcheck : checkEntries entries with
      | error fault => exact ⟨fault, rfl⟩
      | ok width =>
          have hsound := uniform_of_checkEntries hcheck
          exact absurd ⟨not_lt.mp hexecutors, hsound.1, width, hsound.2⟩ hnone

/-! ### Bounds -/

/-- Intervals that follow each other without a gap from zero to the total. -/
structure Tiles (total : Int) (intervals : List (Int × Int)) : Prop where
  first : intervals.head?.map Prod.fst = some 0
  next : intervals.IsChain fun earlier later => later.1 = earlier.2
  last : intervals.getLast?.map Prod.snd = some total
  ordered : ∀ interval ∈ intervals, interval.1 ≤ interval.2

theorem bounds_eq {total count : Nat} (hcount : 0 < count) :
    bounds total count = some ((List.range count).map fun i =>
      ((offset total count i : Int), (offset total count (i + 1) : Int))) := by
  have hne : ((count : Int) == 0) = false := by simpa using hcount.ne'
  rw [bounds, hne]
  simp only [Bool.false_eq_true, if_false, Int.toNat_natCast, start_eq_offset]

/-- The bounds of chunks cover all items, without a gap and in order. -/
theorem tiles_bounds (total : Nat) {count : Nat} (hcount : 0 < count) :
    ∃ intervals, bounds total count = some intervals ∧ intervals.length = count ∧
      Tiles total intervals := by
  refine ⟨_, bounds_eq hcount, by simp, ?_, ?_, ?_, ?_⟩
  · rw [List.head?_map, List.head?_range, if_neg hcount.ne']
    simp
  · rw [List.isChain_map, List.isChain_range]
    exact fun i _ => rfl
  · rw [List.getLast?_map, List.getLast?_range, if_neg hcount.ne', Option.map_some, Option.map_some,
      Nat.sub_add_cancel hcount, offset_count hcount]
  · intro interval hinterval
    obtain ⟨i, -, rfl⟩ := List.mem_map.mp hinterval
    exact Int.ofNat_le.mpr (offset_monotone total count (Nat.le_succ i))

end

/-- When a partition is refused and what it is made of: as many chunks as executors were asked for, but
no more than entries, none of them empty, which are the entries when they are put one after the other;
their sizes differ by at most one, and the larger ones come first. The bounds that chunks are cut at
cover any number of items without a gap. -/
theorem shape_of_chunks (entries : List Entry) {executors : Int}
    (hfits : Decimal.fits executors = true) :
    let refused := executors < 1 ∨ entries = [] ∨ ∃ e ∈ entries, ∃ e' ∈ entries, e.width ≠ e'.width
    ((∃ fault, Partition.chunks entries executors = .error (.run (.entries fault))) ↔ refused) ∧
      (¬ refused → ∃ chunks, Partition.chunks entries executors = .ok chunks ∧
        (chunks.length : Int) = min executors entries.length ∧
        (∀ chunk ∈ chunks, chunk ≠ []) ∧
        chunks.flatten = entries ∧
        chunks.map List.length =
          List.replicate (entries.length % chunks.length) (entries.length / chunks.length + 1) ++
            List.replicate (chunks.length - entries.length % chunks.length)
              (entries.length / chunks.length)) ∧
      ∀ total count : Int, 0 ≤ total → 1 ≤ count →
        ∃ intervals, bounds total count = some intervals ∧ (intervals.length : Int) = count ∧
          Tiles total intervals := by
  refine ⟨?_, ?_, ?_⟩
  · rw [exists_fault_iff_not_exists_chunks hfits, exists_chunks_iff_not, not_not]
  · intro hsound
    obtain ⟨chunks, h⟩ := exists_chunks_iff_not.mpr hsound
    have hone := (chunks_eq_slices h).1
    refine ⟨chunks, h, ?_, fun chunk => ne_nil_of_mem_chunks h, flatten_of_chunks h,
      lengths_of_chunks h⟩
    rw [length_of_chunks h, chunkCount]
    omega
  · intro total count htotal hcount
    lift total to Nat using htotal
    lift count to Nat using by omega
    have hpos : 0 < count := by omega
    obtain ⟨intervals, hbounds, hlength, htiles⟩ := tiles_bounds total hpos
    exact ⟨intervals, hbounds, by rw [hlength], htiles⟩

end Partition

namespace Sample

/-- Five entries of one column. -/
def five : List Entry :=
  [⟨"a", [1]⟩, ⟨"b", [2]⟩, ⟨"c", [3]⟩, ⟨"d", [4]⟩, ⟨"e", [5]⟩]

end Sample

namespace Partition

theorem shape_of_chunks_five :
    Decimal.fits 3 = true ∧
      ∃ chunks, Partition.chunks Sample.five 3 = .ok chunks ∧ chunks.flatten = Sample.five ∧
        chunks.map List.length = [2, 2, 1] := by
  have hfits : Decimal.fits 3 = true := by decide +kernel
  obtain ⟨-, hmade, -⟩ := shape_of_chunks Sample.five hfits
  obtain ⟨chunks, hchunks, hcount, -, hflatten, hlengths⟩ := hmade (by decide)
  have hthree : chunks.length = 3 := by
    have hmin : min (3 : Int) Sample.five.length = 3 := by decide
    omega
  rw [hthree] at hlengths
  exact ⟨hfits, chunks, hchunks, hflatten, hlengths⟩

end Partition

end SumTree
