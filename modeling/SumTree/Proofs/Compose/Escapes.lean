import SumTree.Proofs.Compose.Outline
import SumTree.Proofs.Number.Decimal

/-!
# Failures that are no refusals

Three things in a document of a service can fail otherwise than with a `ComposeFault`. Where a text is
made, be it a part of the definition or the message of a refusal, there can be an integer with more
digits than may be written, or more lists and mappings within each other than can be followed. And a port
in a mapping can be an infinite double, which is no integer.

Whether a computation `Escapes` with such a failure is asked step by step, and the answers are put
together by the laws for sequences and lists.

## Main Definitions

* `Escapes` — a computation that ends with a failure other than a `ComposeFault`.
* `Document.Within` — a document that is another one or stands somewhere in it.
* `Document.HoldsLong`, `Document.NestsDeeply`, `Document.HoldsInfinite` — documents with an integer
  that is too long to be written, that nest too deeply, and with an infinite double.
* `Document.Written`, `Document.Unwritten` — documents with a text, and the failures of the others.
* `Document.Explains` — the failures for which there is a reason in a document.
* `ServiceSpec.PortEscapes` — the port entries that are neither read nor refused.
-/

namespace SumTree

variable {α β : Type}

/-- Whether a failure is the refusal of a service definition. -/
def Failure.isCompose : Failure → Bool
  | .compose _ => true
  | _ => false

/-- A computation ends with a failure other than the refusal of a service definition. -/
def Escapes (x : Except Failure α) (failure : Failure) : Prop :=
  x = .error failure ∧ failure.isCompose = false

namespace Escapes

variable {x : Except Failure α} {failure : Failure}

theorem not_ok {a : α} : ¬ Escapes (.ok a) failure := by
  rintro ⟨⟨⟩, -⟩

theorem not_refuse {fault : ComposeFault} :
    ¬ Escapes (ServiceSpec.refuse fault : Except Failure α) failure := by
  rintro ⟨⟨⟩, ⟨⟩⟩

theorem bind_iff {f : α → Except Failure β} : Escapes (x >>= f) failure ↔
    Escapes x failure ∨ ∃ a, x = .ok a ∧ Escapes (f a) failure := by
  cases x with
  | ok a =>
      constructor
      · exact fun h => .inr ⟨a, rfl, h⟩
      · rintro (h | ⟨a, ⟨⟩, h⟩)
        · exact absurd h not_ok
        · exact h
  | error cause =>
      constructor
      · rintro ⟨⟨⟩, h⟩
        exact .inl ⟨rfl, h⟩
      · rintro (⟨⟨⟩, h⟩ | ⟨a, ⟨⟩, -⟩)
        exact ⟨rfl, h⟩

theorem not_bind {f : α → Except Failure β} (h : ¬ Escapes x failure)
    (hf : ∀ a, ¬ Escapes (f a) failure) : ¬ Escapes (x >>= f) failure := by
  rw [bind_iff]
  rintro (hx | ⟨a, -, ha⟩)
  · exact h hx
  · exact hf a ha

/-- Over a list the first element that is not read decides. -/
theorem mapM_iff {f : α → Except Failure β} {xs : List α} : Escapes (xs.mapM f) failure ↔
    ∃ front x back, xs = front ++ x :: back ∧ (∀ y ∈ front, ∃ b, f y = .ok b) ∧
      Escapes (f x) failure := by
  induction xs with
  | nil =>
      refine iff_of_false not_ok ?_
      rintro ⟨front, x, back, hxs, -⟩
      exact absurd hxs.symm (List.append_ne_nil_of_right_ne_nil front (List.cons_ne_nil x back))
  | cons x rest ih =>
      rw [List.mapM_cons, bind_iff]
      constructor
      · rintro (hx | ⟨b, hb, hrest⟩)
        · exact ⟨[], x, rest, rfl, fun y hy => absurd hy List.not_mem_nil, hx⟩
        · rw [bind_iff] at hrest
          rcases hrest with hrest | ⟨bs, -, hpure⟩
          · obtain ⟨front, y, back, rfl, hfront, hy⟩ := ih.mp hrest
            exact ⟨x :: front, y, back, rfl, List.forall_mem_cons.mpr ⟨⟨b, hb⟩, hfront⟩, hy⟩
          · exact absurd hpure not_ok
      · rintro ⟨front, y, back, hxs, hfront, hy⟩
        cases front with
        | nil =>
            cases hxs
            exact .inl hy
        | cons z front =>
            cases hxs
            obtain ⟨⟨b, hb⟩, hfront⟩ := List.forall_mem_cons.mp hfront
            exact .inr ⟨b, hb, bind_iff.mpr (.inl (ih.mpr ⟨front, y, back, rfl, hfront, hy⟩))⟩

end Escapes

/-! ### Texts of documents -/

/-- A document is another one or stands somewhere in it. -/
inductive Document.Within (d : Document) : Document → Prop
  | self : Within d d
  | item {items : List Document} {x : Document} (hx : x ∈ items) (h : Within d x) :
    Within d (.list items)
  | key {members : List (Document × Document)} {m : Document × Document} (hm : m ∈ members)
    (h : Within d m.1) : Within d (.map members)
  | value {members : List (Document × Document)} {m : Document × Document} (hm : m ∈ members)
    (h : Within d m.2) : Within d (.map members)

/-- Documents with an integer of more digits than may be written. -/
def Document.HoldsLong (d : Document) : Prop :=
  ∃ n, (int n).Within d ∧ Decimal.fits n = false

/-- Documents with an infinite double. -/
def Document.HoldsInfinite (d : Document) : Prop :=
  ∃ x, (real x).Within d ∧ x.isInf = true

namespace Document

mutual

/-- How many lists and mappings stand within each other in a document. -/
def nesting : Document → Nat
  | list items => nestingOfItems items + 1
  | map members => nestingOfMembers members + 1
  | null | bool _ | int _ | real _ | text _ | other .. => 0

/-- The deepest nesting of some documents. -/
def nestingOfItems : List Document → Nat
  | [] => 0
  | item :: rest => max item.nesting (nestingOfItems rest)

/-- The deepest nesting of keys and values. -/
def nestingOfMembers : List (Document × Document) → Nat
  | [] => 0
  | (key, value) :: rest => max (max key.nesting value.nesting) (nestingOfMembers rest)

end

/-- Documents that nest more deeply than a text can show. -/
def NestsDeeply (d : Document) : Prop :=
  nestingLimit < d.nesting

mutual

/-- What stands in the way of the text of a document with room for so many lists and mappings within
each other, from the front to the back. -/
def obstacles (room : Nat) : Document → List TextFault
  | int n => if Decimal.fits n then [] else [.value .tooLongToWrite]
  | list items =>
    match room with
    | 0 => [.tooDeep]
    | room + 1 => obstaclesOfItems room items
  | map members =>
    match room with
    | 0 => [.tooDeep]
    | room + 1 => obstaclesOfMembers room members
  | null | bool _ | real _ | text _ | other .. => []

/-- What stands in the way of the texts of a list's items. -/
def obstaclesOfItems (room : Nat) : List Document → List TextFault
  | [] => []
  | item :: rest => item.obstacles room ++ obstaclesOfItems room rest

/-- What stands in the way of the texts of a mapping's members. -/
def obstaclesOfMembers (room : Nat) : List (Document × Document) → List TextFault
  | [] => []
  | (key, value) :: rest =>
    key.obstacles room ++ (value.obstacles room ++ obstaclesOfMembers room rest)

end

/-- The failures that what is in a document can bring about. -/
inductive Explains (d : Document) : Failure → Prop
  | long (h : d.HoldsLong) : Explains d (.value .tooLongToWrite)
  | deep (h : d.NestsDeeply) : Explains d (.elsewhere "RecursionError" "")
  | infinite (h : d.HoldsInfinite) : Explains d (.elsewhere "OverflowError" "")

/-- Documents with a text: no integer in them is too long to be written, and they do not nest too
deeply. -/
def Written (d : Document) : Prop :=
  ¬ d.HoldsLong ∧ ¬ d.NestsDeeply

/-- The failure of a document without a text: the first thing that stands in the way of it. -/
def Unwritten (d : Document) (failure : Failure) : Prop :=
  ∃ fault, (d.obstacles nestingLimit).head? = some fault ∧ failure = fault.failure

end Document

/-- A text is written, unless something stands in the way, and then the first thing that does is the
fault. -/
def WrittenUnless (x : Except TextFault α) (obstacles : List TextFault) : Prop :=
  (∃ a, x = .ok a) ∧ obstacles = [] ∨ ∃ fault, x = .error fault ∧ obstacles.head? = some fault

namespace WrittenUnless

variable {x : Except TextFault α} {faults faults' : List TextFault}

theorem ok (a : α) : WrittenUnless (.ok a : Except TextFault α) [] :=
  .inl ⟨⟨a, rfl⟩, rfl⟩

theorem error (fault : TextFault) : WrittenUnless (.error fault : Except TextFault α) [fault] :=
  .inr ⟨fault, rfl, rfl⟩

theorem bind {f : α → Except TextFault β} (hx : WrittenUnless x faults)
    (hf : ∀ a, WrittenUnless (f a) faults') : WrittenUnless (x >>= f) (faults ++ faults') := by
  rcases hx with ⟨⟨a, rfl⟩, rfl⟩ | ⟨fault, rfl, hhead⟩
  · exact hf a
  · exact .inr ⟨fault, rfl, by rw [List.head?_append, hhead, Option.some_or]⟩

/-- Nothing stands in the way of what is made of a text in the end. -/
theorem map {f : α → β} (hx : WrittenUnless x faults) :
    WrittenUnless (x >>= fun a => .ok (f a)) faults := by
  have h := hx.bind fun a => ok (f a)
  rwa [List.append_nil] at h

end WrittenUnless

namespace Document

theorem Within.trans {d d' d'' : Document} (h : d.Within d') (h' : d'.Within d'') :
    d.Within d'' := by
  induction h' with
  | self => exact h
  | item hx _ ih => exact .item hx ih
  | key hm _ ih => exact .key hm ih
  | value hm _ ih => exact .value hm ih

theorem within_of_get? {d value : Document} {name : String} (h : d.get? name = some value) :
    value.Within d := by
  obtain ⟨members, rfl⟩ := exists_map_of_get? h
  obtain ⟨m, hm, hvalue⟩ := List.exists_of_findSome?_eq_some h
  split at hvalue
  · split at hvalue
    · cases hvalue
      exact .value hm .self
    · cases hvalue
  · cases hvalue

/-! ### Long integers -/

theorem HoldsLong.within {d d' : Document} (h : d.HoldsLong) (h' : d.Within d') : d'.HoldsLong := by
  obtain ⟨n, hn, hlong⟩ := h
  exact ⟨n, hn.trans h', hlong⟩

theorem holdsLong_int_iff {n : Int} : HoldsLong (.int n) ↔ Decimal.fits n = false := by
  constructor
  · rintro ⟨_, ⟨⟩, h⟩
    exact h
  · exact fun h => ⟨n, .self, h⟩

theorem holdsLong_list_iff {items : List Document} :
    HoldsLong (.list items) ↔ ∃ d ∈ items, HoldsLong d := by
  constructor
  · rintro ⟨n, hn, h⟩
    cases hn with
    | item hd hn => exact ⟨_, hd, n, hn, h⟩
  · rintro ⟨d, hd, h⟩
    exact h.within (.item hd .self)

theorem holdsLong_map_iff {members : List (Document × Document)} :
    HoldsLong (.map members) ↔ ∃ m ∈ members, HoldsLong m.1 ∨ HoldsLong m.2 := by
  constructor
  · rintro ⟨n, hn, h⟩
    cases hn with
    | key hm hn => exact ⟨_, hm, .inl ⟨n, hn, h⟩⟩
    | value hm hn => exact ⟨_, hm, .inr ⟨n, hn, h⟩⟩
  · rintro ⟨m, hm, h | h⟩
    · exact h.within (.key hm .self)
    · exact h.within (.value hm .self)

/-! ### Nesting -/

theorem nestingOfItems_le_iff {items : List Document} {room : Nat} :
    nestingOfItems items ≤ room ↔ ∀ d ∈ items, d.nesting ≤ room := by
  induction items with
  | nil => simp [nestingOfItems]
  | cons item rest ih => rw [nestingOfItems, Nat.max_le, ih, List.forall_mem_cons]

theorem nestingOfMembers_le_iff {members : List (Document × Document)} {room : Nat} :
    nestingOfMembers members ≤ room ↔ ∀ m ∈ members, m.1.nesting ≤ room ∧ m.2.nesting ≤ room := by
  induction members with
  | nil => simp [nestingOfMembers]
  | cons m rest ih => rw [nestingOfMembers, Nat.max_le, Nat.max_le, ih, List.forall_mem_cons]

theorem Within.nesting_le {d d' : Document} (h : d.Within d') : d.nesting ≤ d'.nesting := by
  induction h with
  | self => exact Nat.le_refl _
  | item hx _ ih =>
      rw [nesting]
      exact Nat.le_succ_of_le (ih.trans (nestingOfItems_le_iff.mp (Nat.le_refl _) _ hx))
  | key hm _ ih =>
      rw [nesting]
      exact Nat.le_succ_of_le (ih.trans (nestingOfMembers_le_iff.mp (Nat.le_refl _) _ hm).1)
  | value hm _ ih =>
      rw [nesting]
      exact Nat.le_succ_of_le (ih.trans (nestingOfMembers_le_iff.mp (Nat.le_refl _) _ hm).2)

theorem NestsDeeply.within {d d' : Document} (h : d.NestsDeeply) (h' : d.Within d') :
    d'.NestsDeeply :=
  Nat.lt_of_lt_of_le h h'.nesting_le

/-! ### What stands in the way -/

mutual

theorem writtenUnless_quotedIn : ∀ (room : Nat) (d : Document),
    WrittenUnless (d.quotedIn room) (d.obstacles room)
  | _, null | _, bool _ | _, real _ | _, text _ | _, other .. => by
      rw [quotedIn, obstacles]
      exact .ok _
  | _, int n => by
      rw [quotedIn, obstacles]
      cases hfits : Decimal.fits n with
      | true =>
          rw [Decimal.text_of_fits hfits]
          exact .ok _
      | false =>
          rw [Decimal.text_of_not_fits hfits]
          exact .error _
  | 0, list items => by
      rw [quotedIn, obstacles]
      exact .error _
  | room + 1, list items => by
      rw [quotedIn, obstacles]
      exact (writtenUnless_quotedItems room items).map
  | 0, map members => by
      rw [quotedIn, obstacles]
      exact .error _
  | room + 1, map members => by
      rw [quotedIn, obstacles]
      exact (writtenUnless_quotedMembers room members).map

theorem writtenUnless_quotedItems : ∀ (room : Nat) (items : List Document),
    WrittenUnless (quotedItems room items) (obstaclesOfItems room items)
  | _, [] => by
      rw [quotedItems, obstaclesOfItems]
      exact .ok _
  | room, item :: rest => by
      rw [quotedItems, obstaclesOfItems]
      exact (writtenUnless_quotedIn room item).bind fun text =>
        (writtenUnless_quotedItems room rest).map

theorem writtenUnless_quotedMembers : ∀ (room : Nat) (members : List (Document × Document)),
    WrittenUnless (quotedMembers room members) (obstaclesOfMembers room members)
  | _, [] => by
      rw [quotedMembers, obstaclesOfMembers]
      exact .ok _
  | room, (key, value) :: rest => by
      rw [quotedMembers, obstaclesOfMembers]
      exact (writtenUnless_quotedIn room key).bind fun keyText =>
        (writtenUnless_quotedIn room value).bind fun valueText =>
          (writtenUnless_quotedMembers room rest).map

end

theorem writtenUnless_quoted (d : Document) :
    WrittenUnless d.quoted (d.obstacles nestingLimit) :=
  writtenUnless_quotedIn nestingLimit d

theorem writtenUnless_shown (d : Document) :
    WrittenUnless d.shown (d.obstacles nestingLimit) := by
  cases d with
  | text s => exact .ok _
  | other type shown quoted => exact .ok _
  | _ => exact writtenUnless_quoted _

mutual

/-- What stands in the way of a text is a long integer or a lack of room. -/
theorem obstacles_eq_nil_iff : ∀ (room : Nat) (d : Document),
    d.obstacles room = [] ↔ ¬ d.HoldsLong ∧ d.nesting ≤ room
  | room, null | room, bool _ | room, real _ | room, text _ | room, other .. => by
      rw [obstacles, nesting]
      exact iff_of_true rfl ⟨by rintro ⟨n, ⟨⟩, -⟩, Nat.zero_le room⟩
  | room, int n => by
      rw [obstacles, nesting, holdsLong_int_iff]
      simp
  | 0, list items => by
      rw [obstacles, nesting]
      simp
  | room + 1, list items => by
      rw [obstacles, nesting, obstaclesOfItems_eq_nil_iff, holdsLong_list_iff, Nat.succ_le_succ_iff]
  | 0, map members => by
      rw [obstacles, nesting]
      simp
  | room + 1, map members => by
      rw [obstacles, nesting, obstaclesOfMembers_eq_nil_iff, holdsLong_map_iff, Nat.succ_le_succ_iff]

theorem obstaclesOfItems_eq_nil_iff : ∀ (room : Nat) (items : List Document),
    obstaclesOfItems room items = [] ↔
      ¬ (∃ d ∈ items, d.HoldsLong) ∧ nestingOfItems items ≤ room
  | room, [] => by
      rw [obstaclesOfItems, nestingOfItems]
      simp
  | room, item :: rest => by
      rw [obstaclesOfItems, nestingOfItems, List.append_eq_nil_iff, obstacles_eq_nil_iff room item,
        obstaclesOfItems_eq_nil_iff room rest, List.exists_mem_cons_iff, Nat.max_le, not_or,
        and_and_and_comm]

theorem obstaclesOfMembers_eq_nil_iff : ∀ (room : Nat) (members : List (Document × Document)),
    obstaclesOfMembers room members = [] ↔
      ¬ (∃ m ∈ members, m.1.HoldsLong ∨ m.2.HoldsLong) ∧ nestingOfMembers members ≤ room
  | room, [] => by
      rw [obstaclesOfMembers, nestingOfMembers]
      simp
  | room, (key, value) :: rest => by
      rw [obstaclesOfMembers, nestingOfMembers, List.append_eq_nil_iff, List.append_eq_nil_iff,
        obstacles_eq_nil_iff room key, obstacles_eq_nil_iff room value,
        obstaclesOfMembers_eq_nil_iff room rest, List.exists_mem_cons_iff, Nat.max_le, Nat.max_le,
        not_or, not_or, ← and_assoc, and_and_and_comm (a := ¬ key.HoldsLong), and_and_and_comm]

end

mutual

/-- A long integer or a lack of room stands in the way as what it is. -/
theorem of_mem_obstacles : ∀ (room : Nat) (d : Document) {fault : TextFault},
    fault ∈ d.obstacles room →
      fault = .value .tooLongToWrite ∧ d.HoldsLong ∨ fault = .tooDeep ∧ room < d.nesting
  | _, null, _, h | _, bool _, _, h | _, real _, _, h | _, text _, _, h | _, other .., _, h => by
      rw [obstacles] at h
      cases h
  | _, int n, fault, h => by
      rw [obstacles] at h
      split at h
      · cases h
      · rename_i hlong
        exact .inl ⟨List.mem_singleton.mp h, holdsLong_int_iff.mpr (eq_false_of_ne_true hlong)⟩
  | 0, list items, fault, h => by
      rw [obstacles] at h
      exact .inr ⟨List.mem_singleton.mp h, Nat.succ_pos _⟩
  | room + 1, list items, fault, h => by
      rw [obstacles] at h
      rw [holdsLong_list_iff, nesting, Nat.succ_lt_succ_iff]
      exact of_mem_obstaclesOfItems room items h
  | 0, map members, fault, h => by
      rw [obstacles] at h
      exact .inr ⟨List.mem_singleton.mp h, Nat.succ_pos _⟩
  | room + 1, map members, fault, h => by
      rw [obstacles] at h
      rw [holdsLong_map_iff, nesting, Nat.succ_lt_succ_iff]
      exact of_mem_obstaclesOfMembers room members h

theorem of_mem_obstaclesOfItems : ∀ (room : Nat) (items : List Document) {fault : TextFault},
    fault ∈ obstaclesOfItems room items →
      fault = .value .tooLongToWrite ∧ (∃ d ∈ items, d.HoldsLong) ∨
        fault = .tooDeep ∧ room < nestingOfItems items
  | _, [], _, h => by
      rw [obstaclesOfItems] at h
      cases h
  | room, item :: rest, fault, h => by
      rw [obstaclesOfItems, List.mem_append] at h
      rw [List.exists_mem_cons_iff, nestingOfItems, lt_max_iff]
      rcases h with h | h
      · exact (of_mem_obstacles room item h).imp (And.imp_right .inl) (And.imp_right .inl)
      · exact (of_mem_obstaclesOfItems room rest h).imp (And.imp_right .inr) (And.imp_right .inr)

theorem of_mem_obstaclesOfMembers : ∀ (room : Nat) (members : List (Document × Document))
    {fault : TextFault}, fault ∈ obstaclesOfMembers room members →
      fault = .value .tooLongToWrite ∧ (∃ m ∈ members, m.1.HoldsLong ∨ m.2.HoldsLong) ∨
        fault = .tooDeep ∧ room < nestingOfMembers members
  | _, [], _, h => by
      rw [obstaclesOfMembers] at h
      cases h
  | room, (key, value) :: rest, fault, h => by
      rw [obstaclesOfMembers, List.mem_append, List.mem_append] at h
      rw [List.exists_mem_cons_iff, nestingOfMembers, lt_max_iff, lt_max_iff]
      rcases h with h | h | h
      · exact (of_mem_obstacles room key h).imp (And.imp_right (.inl ∘ .inl))
          (And.imp_right (.inl ∘ .inl))
      · exact (of_mem_obstacles room value h).imp (And.imp_right (.inl ∘ .inr))
          (And.imp_right (.inl ∘ .inr))
      · exact (of_mem_obstaclesOfMembers room rest h).imp (And.imp_right .inr) (And.imp_right .inr)

end

theorem Written.not_unwritten {d : Document} (h : d.Written) {failure : Failure} :
    ¬ d.Unwritten failure := by
  rintro ⟨fault, hhead, -⟩
  rw [(obstacles_eq_nil_iff nestingLimit d).mpr ⟨h.1, Nat.not_lt.mp h.2⟩] at hhead
  cases hhead

theorem unwritten_int {n : Int} (h : Decimal.fits n = false) :
    (int n).Unwritten (.value .tooLongToWrite) := by
  refine ⟨.value .tooLongToWrite, ?_, rfl⟩
  rw [obstacles, h]
  rfl

theorem Unwritten.explains {d : Document} {failure : Failure} (h : d.Unwritten failure) :
    d.Explains failure := by
  obtain ⟨fault, hhead, rfl⟩ := h
  rcases of_mem_obstacles nestingLimit d (List.mem_of_head? hhead) with ⟨rfl, hlong⟩ | ⟨rfl, hdeep⟩
  · exact .long hlong
  · exact .deep hdeep

theorem Explains.within {d d' : Document} {failure : Failure} (h : d.Explains failure)
    (h' : d.Within d') : d'.Explains failure := by
  cases h with
  | long hlong => exact .long (hlong.within h')
  | deep hdeep => exact .deep (hdeep.within h')
  | infinite hinfinite =>
      obtain ⟨x, hx, hinf⟩ := hinfinite
      exact .infinite ⟨x, hx.trans h', hinf⟩

end Document

namespace ServiceSpec

variable {failure : Failure}

/-- What stands in the way of a text is all that it can fail for. -/
theorem escapes_text_iff {text : Except TextFault String} {faults : List TextFault}
    (h : WrittenUnless text faults) :
    Escapes (textOf text) failure ↔ ∃ fault, faults.head? = some fault ∧ failure = fault.failure := by
  rcases h with ⟨⟨s, rfl⟩, rfl⟩ | ⟨fault, rfl, hhead⟩
  · refine iff_of_false Escapes.not_ok ?_
    rintro ⟨fault, ⟨⟩, -⟩
  · rw [hhead]
    constructor
    · rintro ⟨⟨⟩, -⟩
      exact ⟨fault, rfl, rfl⟩
    · rintro ⟨_, ⟨⟩, rfl⟩
      exact ⟨rfl, by cases fault <;> rfl⟩

theorem exists_text_iff {text : Except TextFault String} {faults : List TextFault}
    (h : WrittenUnless text faults) : (∃ s, textOf text = .ok s) ↔ faults = [] := by
  rcases h with ⟨⟨s, rfl⟩, rfl⟩ | ⟨fault, rfl, hhead⟩
  · exact iff_of_true ⟨s, rfl⟩ rfl
  · refine iff_of_false ?_ ?_
    · rintro ⟨s, ⟨⟩⟩
    · rintro rfl
      cases hhead

theorem escapes_quoted_iff {d : Document} :
    Escapes (textOf d.quoted) failure ↔ d.Unwritten failure :=
  escapes_text_iff d.writtenUnless_quoted

theorem escapes_shown_iff {d : Document} :
    Escapes (textOf d.shown) failure ↔ d.Unwritten failure :=
  escapes_text_iff d.writtenUnless_shown

theorem exists_shown_iff {d : Document} : (∃ s, textOf d.shown = .ok s) ↔ d.Written := by
  rw [exists_text_iff d.writtenUnless_shown, Document.obstacles_eq_nil_iff, ← Nat.not_lt]
  rfl

/-- Of documents the first that has no text decides. -/
theorem escapes_texts_iff {ds : List Document} :
    Escapes (ds.mapM fun d => textOf d.shown) failure ↔
      ∃ front d back, ds = front ++ d :: back ∧ (∀ y ∈ front, y.Written) ∧ d.Unwritten failure := by
  simp only [Escapes.mapM_iff, exists_shown_iff, escapes_shown_iff]

/-! ### Port entries -/

/-- The number under a key of a port entry. -/
def numberUnder (key : String) (entry : Document) : Except NumberFault Int :=
  match entry.get? key with
  | some value => numberOf value
  | none => .error .notANumber

/-- The mapping of a port entry by its two numbers, the published one first. -/
def numbersOf (entry : Document) : Except NumberFault PortMapping := do
  let published ← numberUnder "published" entry
  let target ← numberUnder "target" entry
  return ⟨published, target⟩

theorem portOfMap_eq (entry : Document) : portOfMap entry =
    match numbersOf entry with
    | .ok m => .ok m
    | .error .infinite => .error (.elsewhere "OverflowError" "")
    | .error .notANumber => badPort entry := by
  unfold portOfMap numbersOf numberUnder
  dsimp only
  cases entry.get? "published" with
  | none => rfl
  | some first =>
      dsimp only
      cases numberOf first with
      | error fault =>
          cases fault with
          | notANumber => rfl
          | infinite => rfl
      | ok published =>
          cases entry.get? "target" with
          | none => rfl
          | some second =>
              dsimp only
              cases numberOf second with
              | ok target => rfl
              | error fault =>
                  cases fault with
                  | notANumber => rfl
                  | infinite => rfl

/-- The port entries that are neither read nor refused, and the failures with which they end. -/
inductive PortEscapes : Document → Failure → Prop
  /-- An entry that is no mapping cannot be shown. -/
  | unshown {entry : Document} (hentry : ∀ members, entry ≠ .map members) {failure : Failure}
    (h : entry.Unwritten failure) : PortEscapes entry failure
  /-- A mapping without two numbers cannot be shown. -/
  | unusable {members : List (Document × Document)}
    (hnumbers : numbersOf (.map members) = .error .notANumber) {failure : Failure}
    (h : (Document.map members).Unwritten failure) : PortEscapes (.map members) failure
  /-- The first port of a mapping that is no integer is an infinite double. -/
  | infinite {members : List (Document × Document)}
    (hnumbers : numbersOf (.map members) = .error .infinite) :
    PortEscapes (.map members) (.elsewhere "OverflowError" "")

/-- A refused entry is shown in the message of its refusal. -/
theorem escapes_badPort_iff {entry : Document} :
    Escapes (badPort entry) failure ↔ entry.Unwritten failure := by
  unfold badPort
  rw [Escapes.bind_iff, escapes_quoted_iff]
  refine or_iff_left ?_
  rintro ⟨text, -, h⟩
  exact Escapes.not_refuse h

theorem portEscapes_iff_of_not_map {entry : Document} (hentry : ∀ members, entry ≠ .map members) :
    PortEscapes entry failure ↔ entry.Unwritten failure := by
  constructor
  · intro h
    cases h with
    | unshown _ h => exact h
    | unusable => exact absurd rfl (hentry _)
    | infinite => exact absurd rfl (hentry _)
  · exact .unshown hentry

theorem portEscapes_map_iff {members : List (Document × Document)} :
    PortEscapes (.map members) failure ↔
      numbersOf (.map members) = .error .notANumber ∧ (Document.map members).Unwritten failure ∨
        numbersOf (.map members) = .error .infinite ∧ failure = .elsewhere "OverflowError" "" := by
  constructor
  · intro h
    cases h with
    | unshown hentry => exact absurd rfl (hentry _)
    | unusable hnumbers h => exact .inl ⟨hnumbers, h⟩
    | infinite hnumbers => exact .inr ⟨hnumbers, rfl⟩
  · rintro (⟨hnumbers, h⟩ | ⟨hnumbers, rfl⟩)
    · exact .unusable hnumbers h
    · exact .infinite hnumbers

theorem escapes_portOfMap_iff {members : List (Document × Document)} :
    Escapes (portOfMap (.map members)) failure ↔ PortEscapes (.map members) failure := by
  rw [portOfMap_eq, portEscapes_map_iff]
  cases numbersOf (.map members) with
  | ok m => exact iff_of_false Escapes.not_ok (by simp)
  | error fault =>
      cases fault with
      | notANumber => simpa using escapes_badPort_iff
      | infinite =>
          constructor
          · rintro ⟨⟨⟩, -⟩
            exact .inr ⟨rfl, rfl⟩
          · rintro (⟨⟨⟩, -⟩ | ⟨-, rfl⟩)
            exact ⟨rfl, rfl⟩

/-- An entry that was shown once can be shown again in the message of its refusal. -/
theorem escapes_scalar_iff {entry : Document} :
    Escapes (textOf entry.shown >>= fun text =>
      match portOfText text with
      | some port => pure port
      | none => badPort entry) failure ↔ entry.Unwritten failure := by
  rw [Escapes.bind_iff, escapes_shown_iff]
  refine or_iff_left ?_
  rintro ⟨text, htext, h⟩
  split at h
  · exact Escapes.not_ok h
  · exact (exists_shown_iff.mp ⟨text, htext⟩).not_unwritten (escapes_badPort_iff.mp h)

theorem escapes_portOf_iff {entry : Document} :
    Escapes (portOf entry) failure ↔ PortEscapes entry failure := by
  have hscalar : ∀ {entry : Document}, (∀ members, entry ≠ .map members) →
      (entry.Unwritten failure ↔ PortEscapes entry failure) :=
    fun hentry => (portEscapes_iff_of_not_map hentry).symm
  cases entry with
  | map members => exact escapes_portOfMap_iff
  | text s => exact escapes_scalar_iff.trans (hscalar fun _ h => nomatch h)
  | int n => exact escapes_scalar_iff.trans (hscalar fun _ h => nomatch h)
  | bool b => exact escapes_scalar_iff.trans (hscalar fun _ h => nomatch h)
  | null => exact escapes_badPort_iff.trans (hscalar fun _ h => nomatch h)
  | real x => exact escapes_badPort_iff.trans (hscalar fun _ h => nomatch h)
  | list items => exact escapes_badPort_iff.trans (hscalar fun _ h => nomatch h)
  | other => exact escapes_badPort_iff.trans (hscalar fun _ h => nomatch h)

theorem infinite_of_numberOf {d : Document} (h : numberOf d = .error .infinite) :
    d.HoldsInfinite := by
  cases d with
  | real x =>
      rw [numberOf] at h
      split at h
      · rename_i hinf
        exact ⟨x, .self, hinf⟩
      · split at h
        · cases h
        · split at h <;> cases h
  | text s =>
      rw [numberOf] at h
      split at h <;> cases h
  | _ => cases h

theorem infinite_of_numbersOf {entry : Document} (h : numbersOf entry = .error .infinite) :
    entry.HoldsInfinite := by
  have hunder : ∀ key, numberUnder key entry = .error .infinite → entry.HoldsInfinite := by
    intro key hkey
    unfold numberUnder at hkey
    split at hkey
    · rename_i value hvalue
      obtain ⟨x, hx, hinf⟩ := infinite_of_numberOf hkey
      exact ⟨x, hx.trans (Document.within_of_get? hvalue), hinf⟩
    · cases hkey
  unfold numbersOf at h
  cases hpublished : numberUnder "published" entry with
  | error fault =>
      rw [hpublished] at h
      cases h
      exact hunder _ hpublished
  | ok published =>
      cases htarget : numberUnder "target" entry with
      | error fault =>
          rw [hpublished, htarget] at h
          cases h
          exact hunder _ htarget
      | ok target =>
          rw [hpublished, htarget] at h
          cases h

theorem PortEscapes.explains {entry : Document} (h : PortEscapes entry failure) :
    entry.Explains failure := by
  cases h with
  | unshown _ h => exact h.explains
  | unusable _ h => exact h.explains
  | infinite hnumbers => exact .infinite (infinite_of_numbersOf hnumbers)

end ServiceSpec

end SumTree
