import SumTree.Proofs.Spawner.Calls

/-!
# Recorded providers

What a spawner asks of its provider, and what came of it, as one list in order. The record is kept by
a provider that passes everything on to another one and remembers it; whatever calls a spawner gets, it
answers them with the recorded provider as it does with the provider itself
(`Provider.serve_recorded`).

## Main Definitions

* `Asked` — one request to a provider, with what came of it.
* `Recorded` — a provider's state with all requests so far.
* `Provider.recorded` — the provider that remembers.
-/

namespace SumTree

/-- One request of a spawner to its provider, with what came of it. -/
inductive Asked
  | provision (count : Nat) (result : Except Failure (List Handle))
  | teardown (h : Handle) (result : Except Failure Unit)
  /-- What remains to be done, given the handles still live and those that were taken down. -/
  | finish (live released : List Handle) (result : Except Failure (List Leftover))

/-- A provider's state with all requests so far. -/
structure Recorded (σ : Type) where
  inner : σ
  asked : List Asked

variable {σ : Type}

/-- An action of a provider that is remembered. -/
def Recorded.noting {α : Type} (a : Action σ α) (note : Except Failure α → Asked) :
    Action (Recorded σ) α :=
  ExceptT.mk fun w =>
    let (result, after) := a.run ⟨w.state.inner, w.journal⟩
    (result, ⟨⟨after.state, w.state.asked ++ [note result]⟩, after.journal⟩)

/-- The ledger without the record. -/
def Ledger.erase (l : Ledger (Recorded σ)) : Ledger σ :=
  ⟨l.live, l.inner.inner⟩

namespace Provider

/-- The provider that remembers what it is asked for. -/
def recorded (p : Provider σ) : Provider (Recorded σ) where
  kind := p.kind
  provision count := Recorded.noting (p.provision count) (.provision count)
  teardown h := Recorded.noting (p.teardown h) (.teardown h)
  finishRelease live released :=
    Recorded.noting (p.finishRelease live released) (.finish live released)

/-! ### The record changes nothing -/

open SumTree.Action

theorem projects_noting {α : Type} (a : Action σ α) (note : Except Failure α → Asked) :
    Projects Recorded.inner (Recorded.noting a note) a :=
  fun _ => rfl

variable (p : Provider σ)

theorem seen_recorded : Seen Recorded.inner p.recorded p :=
  ⟨rfl, fun _ => projects_noting _ _, fun _ => projects_noting _ _,
    fun _ _ => projects_noting _ _⟩

theorem projects_release (handles : List Handle) :
    Projects Ledger.erase (p.recorded.release handles) (p.release handles) :=
  p.seen_recorded.release handles

/-- A spawner answers its calls with the recorded provider as it does with the provider itself. -/
theorem serve_recorded (calls : List Call) (w : Logged (Ledger (Recorded σ))) :
    p.serve calls (w.map Ledger.erase) =
      ((p.recorded.serve calls w).1, (p.recorded.serve calls w).2.map Ledger.erase) :=
  p.seen_recorded.serve calls w

end Provider

end SumTree
