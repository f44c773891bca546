import SumTree.Proofs.Except
import SumTree.Run.Exchange

/-!
# Accepted answers

What an exchange accepts: of all replies only a successful response whose body reads as a tree that
could be the sum tree of the chunk (`Exchange.plausible_of_judge`). The tree carries the entries that
were sent, whatever the worker answers. An exchange fails as cancelled only when it was given up, or
when the transport raised that very error (`Exchange.eq_broken_of_judge`).

## Main Definitions

* `MiniTree.Plausible` — what an accepted tree has in common with the sum tree of some entries.
-/

namespace SumTree

/-- A tree that could be the sum tree of some entries, as far as an exchange checks. -/
structure MiniTree.Plausible (t : MiniTree) (entries : List Entry) : Prop where
  leaves : t.leaves.length = entries.length
  top : t.levels.getLastD [] = [t.root]
  width : ∀ n ∈ t.levels.flatten, n.width = (entries.head?.map Entry.width).getD 0
  depth : t.depth = treeDepth entries.length
  totals : t.root.balances = Entry.totals entries

theorem plausible_of_inconsistency?_eq_none {t : MiniTree} {entries : List Entry}
    (h : inconsistency? t entries = none) : t.Plausible entries := by
  rw [inconsistency?] at h
  split at h
  · cases h
  · split at h
    · cases h
    · rename_i hleaves
      split at h
      · cases h
      · rename_i htop
        split at h
        · cases h
        · rename_i hwidth
          split at h
          · cases h
          · rename_i hdepth
            split at h
            · cases h
            · rename_i htotals
              refine ⟨by simpa using hleaves, by simpa using htop, fun n hn => ?_,
                by simpa using hdepth, by simpa using htotals⟩
              simpa using List.find?_eq_none.mp hwidth n hn

/-- Nothing is found wrong with such a tree. -/
theorem MiniTree.Plausible.inconsistency?_eq_none {t : MiniTree} {entries : List Entry}
    (h : t.Plausible entries) (hne : entries ≠ []) : inconsistency? t entries = none := by
  have hleaves : t.leaves.isEmpty = false := by
    rw [List.isEmpty_eq_false_iff, ← List.length_pos_iff, h.leaves, List.length_pos_iff]
    exact hne
  have hwidth : t.levels.flatten.find?
      (fun n => n.width != (entries.head?.map Entry.width).getD 0) = none := by
    rw [List.find?_eq_none]
    intro n hn
    simp [h.width n hn]
  unfold inconsistency?
  simp only [hleaves, h.leaves, h.top, hwidth, h.depth, h.totals, bne_self_eq_false,
    Bool.false_eq_true, if_false]

/-- A record that passes its check passes the check of its members. -/
theorem eq_ok_of_record {α : Type} {check : Json → Checked α} {v : Json} {a : α}
    (h : Check.record check v = .ok a) : check v = .ok a := by
  cases v with
  | obj members => exact h
  | _ => cases h

namespace Wire

/-- A tree that is read carries the entries that were sent. -/
theorem entries_of_readTreeChars {entries : List Entry} {cs : Option (List Char)} {t : MiniTree}
    (h : readTreeChars entries cs = .ok t) : t.entries = entries := by
  rw [readTreeChars] at h
  split at h
  · obtain ⟨parts, -, rfl⟩ := exists_of_map_eq_ok (eq_ok_of_record h)
    rfl
  · cases h

end Wire

namespace Exchange

variable {x : Exchange} {t : MiniTree}

theorem refuse_ne_ok {text : Except Outside String} {fault : String → ExchangeFault}
    {reason : String} : x.refuse text fault reason ≠ .ok t := by
  intro h
  cases text <;> cases h

/-- The error of a run that a refusal is shows the front of the answer. -/
theorem exists_of_refuse_eq_run {text : Except Outside String} {fault : String → ExchangeFault}
    {reason : String} {e : RunError}
    (h : (x.refuse text fault reason : Except Failure MiniTree) = .error (.run e)) :
    ∃ whole, text = .ok whole ∧
      e = .exchange ⟨fault (preview whole), reason, some x.chunk, some x.handle.address⟩ := by
  cases text with
  | ok whole =>
      cases h
      exact ⟨whole, rfl, rfl⟩
  | error o => cases h

theorem plausible_of_judgeBody {body : List UInt8} {text : Except Outside String}
    (h : x.judgeBody body text = .ok t) :
    t.entries = x.entries ∧ t.Plausible x.entries := by
  rw [judgeBody] at h
  split at h
  · exact absurd h refuse_ne_ok
  · rename_i tree hread
    split at h
    · rename_i hconsistent
      cases h
      exact ⟨Wire.entries_of_readTreeChars hread, plausible_of_inconsistency?_eq_none hconsistent⟩
    · split at h
      · exact absurd h refuse_ne_ok
      · cases h

/-- An accepted tree carries the entries that were sent, and could be their sum tree. -/
theorem plausible_of_judge {reply : Reply} (h : x.judge reply = .ok t) :
    t.entries = x.entries ∧ t.Plausible x.entries := by
  cases reply with
  | response status body text =>
      rw [judge] at h
      split at h
      · exact plausible_of_judgeBody h
      · exact absurd h refuse_ne_ok
  | timedOut => cases h
  | disconnected name text => cases h
  | broken failure => cases h

/-- The body of an answer never counts as a cancellation. -/
theorem not_isCancellation_of_judgeBody {body : List UInt8} {text : Except Outside String}
    {e : RunError} (h : x.judgeBody body text = .error (.run e)) : e.isCancellation = false := by
  rw [judgeBody] at h
  split at h
  · obtain ⟨whole, -, rfl⟩ := exists_of_refuse_eq_run h
    rfl
  · split at h
    · cases h
    · split at h
      · obtain ⟨whole, -, rfl⟩ := exists_of_refuse_eq_run h
        rfl
      · cases h

/-- No reply counts as a cancellation, unless the transport itself raised that error. -/
theorem eq_broken_of_judge {reply : Reply} {e : RunError} (h : x.judge reply = .error (.run e))
    (hcancelled : e.isCancellation = true) : reply = .broken (.run e) := by
  cases reply with
  | response status body text =>
      rw [judge] at h
      split at h
      · rw [not_isCancellation_of_judgeBody h] at hcancelled
        cases hcancelled
      · obtain ⟨whole, -, rfl⟩ := exists_of_refuse_eq_run h
        cases hcancelled
  | timedOut =>
      cases h
      cases hcancelled
  | disconnected name text =>
      cases h
      cases hcancelled
  | broken failure =>
      cases h
      rfl

/-- What is sent is the wire form of the entries, to the base address of the worker. -/
theorem of_request_eq_ok {url : Address} {body : List WireEntry}
    (h : x.request = .ok (url, body)) :
    Wire.encodeEntries x.entries = .ok body ∧ Address.base? x.handle.address = some url := by
  rw [request] at h
  split at h
  · cases h
  · rename_i encoded hencoded
    split at h
    · rename_i base hbase
      cases h
      exact ⟨hencoded, hbase⟩
    · cases h

/-- What cannot be sent is no error of a run. -/
theorem request_ne_run (e : RunError) : x.request ≠ .error (.run e) := by
  intro h
  rw [request] at h
  split at h
  · cases h
  · split at h <;> cases h

end Exchange

end SumTree
