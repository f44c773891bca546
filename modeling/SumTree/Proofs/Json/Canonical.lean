import SumTree.Proofs.Tree.Payload

/-!
# Canonical bytes

Two values have the same canonical bytes exactly when they are equal up to the order in which the
members of objects stand, at any depth (`bytes_eq_iff_alike`). One direction is that the bytes can be
read: they determine the value with the members of its objects sorted, and values that are equal after
sorting differ in the order of members alone (`alike_of_sorted_eq`). The other one is that sorting
undoes every reordering, because no two members of an object have one name
(`canonicalChars_of_alike`).

## Main Definitions

* `Json.Proper` — values without doubles, the members of whose objects have distinct names.
* `Json.Alike` — values that are equal when the order of members does not count.
-/

namespace SumTree

namespace Json

/-- Values without doubles, the members of whose objects have distinct names. -/
inductive Proper : Json → Prop
  | null : Proper .null
  | bool (b : Bool) : Proper (.bool b)
  | int (n : Int) : Proper (.int n)
  | str (s : String) : Proper (.str s)
  | unpaired (points : List Nat) : Proper (.unpaired points)
  | arr {items : List Json} (h : ∀ v ∈ items, Proper v) : Proper (.arr items)
  | obj {members : List (String × Json)} (hnames : (members.map Prod.fst).Nodup)
    (h : ∀ m ∈ members, Proper m.2) : Proper (.obj members)

/-- Values that are equal when the order of members does not count: arrays are compared element by
element, objects member by member once the members of one of them stand in another order. -/
inductive Alike : Json → Json → Prop
  | refl (v : Json) : Alike v v
  | arr {items items' : List Json} (hlength : items.length = items'.length)
    (h : ∀ p ∈ items.zip items', Alike p.1 p.2) : Alike (.arr items) (.arr items')
  | obj {members reordered members' : List (String × Json)} (hperm : reordered.Perm members')
    (hlength : members.length = reordered.length)
    (hnames : ∀ p ∈ members.zip reordered, p.1.1 = p.2.1)
    (h : ∀ p ∈ members.zip reordered, Alike p.1.2 p.2.2) : Alike (.obj members) (.obj members')

/-! ### From the bytes to the values -/

/-- Elements are equal after sorting when their arrays are. -/
theorem forall₂_sorted_of_sortedItems_eq {items items' : List Json}
    (h : sortedItems items = sortedItems items') :
    List.Forall₂ (fun v w => sorted v = sorted w) items items' := by
  rw [sortedItems_eq_map, sortedItems_eq_map, ← List.forall₂_eq_eq_eq,
    List.forall₂_map_left_iff, List.forall₂_map_right_iff] at h
  exact h

/-- Members that are the same after sorting are the same in some order, up to sorting their values. -/
theorem exists_reordered_of_mergeSort_eq {members members' : List (String × Json)}
    (h : (sortedMembers members).mergeSort nameLe = (sortedMembers members').mergeSort nameLe) :
    ∃ reordered, reordered.Perm members' ∧
      List.Forall₂ (fun m m' => m.1 = m'.1 ∧ sorted m.2 = sorted m'.2) members reordered := by
  have hperm : (sortedMembers members).Perm (sortedMembers members') := by
    refine (List.mergeSort_perm _ nameLe).symm.trans ?_
    rw [h]
    exact List.mergeSort_perm _ nameLe
  rw [sortedMembers_eq_map, sortedMembers_eq_map] at hperm
  have hself : List.Forall₂ (fun m m' => m = (m'.1, sorted m'.2))
      (members'.map fun m => (m.1, sorted m.2)) members' := by
    rw [List.forall₂_map_left_iff, List.forall₂_same]
    exact fun m _ => rfl
  obtain ⟨reordered, hall, hreordered⟩ := List.perm_comp_forall₂ hperm hself
  refine ⟨reordered, hreordered, ?_⟩
  rw [List.forall₂_map_left_iff] at hall
  exact hall.imp fun m m' heq => Prod.mk.inj heq

/-- Values that are equal after sorting are equal up to the order of members. -/
theorem alike_of_sorted_eq {v w : Json} (hv : v.Proper) (h : sorted v = sorted w) : v.Alike w := by
  -- Sorting touches arrays and objects alone, so that any other value is sorted from itself only.
  induction hv generalizing w with
  | null => cases w <;> cases h; exact .refl _
  | bool b => cases w <;> cases h; exact .refl _
  | int n => cases w <;> cases h; exact .refl _
  | str s => cases w <;> cases h; exact .refl _
  | unpaired points => cases w <;> cases h; exact .refl _
  | @arr items _ ih =>
      cases w with
      | arr items' =>
          rw [sorted, sorted, Json.arr.injEq] at h
          obtain ⟨hlength, hsorted⟩ :=
            List.forall₂_iff_zip.mp (forall₂_sorted_of_sortedItems_eq h)
          exact .arr hlength fun p hp => ih p.1 (List.of_mem_zip hp).1 (hsorted hp)
      | _ => cases h
  | @obj members _ _ ih =>
      cases w with
      | obj members' =>
          rw [sorted, sorted, Json.obj.injEq] at h
          obtain ⟨reordered, hperm, hall⟩ := exists_reordered_of_mergeSort_eq h
          obtain ⟨hlength, hsorted⟩ := List.forall₂_iff_zip.mp hall
          exact .obj hperm hlength (fun p hp => (hsorted hp).1)
            fun p hp => ih p.1 (List.of_mem_zip hp).1 (hsorted hp).2
      | _ => cases h

/-! ### Which values have bytes -/

/-- Values that can each be nested in some depth can all be nested in one. -/
theorem exists_common_depth {values : List Json} (h : ∀ v ∈ values, ∃ depth, Legible depth v) :
    ∃ depth, ∀ v ∈ values, Legible depth v := by
  induction values with
  | nil => exact ⟨0, fun v hv => absurd hv List.not_mem_nil⟩
  | cons v rest ih =>
      obtain ⟨⟨depth, hv⟩, hrest⟩ := List.forall_mem_cons.mp h
      obtain ⟨depth', hrest⟩ := ih hrest
      refine ⟨max depth depth', List.forall_mem_cons.mpr ⟨hv.mono (le_max_left _ _), ?_⟩⟩
      exact fun w hw => (hrest w hw).mono (le_max_right _ _)

/-- A value without doubles that has canonical characters has a text. -/
theorem exists_legible_of_canonicalChars {v : Json} {cs : List Char} (hv : v.Proper)
    (h : canonicalChars v = .ok cs) : ∃ depth, Legible depth v := by
  induction hv generalizing cs with
  | null => exact ⟨0, .null⟩
  | bool b => exact ⟨0, .bool b⟩
  | int n => exact ⟨0, .int (fits_of_canonicalChars_int h)⟩
  | str s => exact ⟨0, .str s⟩
  | unpaired points => cases h
  | @arr items _ ih =>
      rw [canonicalChars_arr] at h
      obtain ⟨texts, htexts, -⟩ := exists_of_map_eq_ok h
      obtain ⟨depth, hdepth⟩ := exists_common_depth fun v hv => by
        obtain ⟨text, htext⟩ := exists_of_mem_mapM htexts hv
        exact ih v hv htext
      exact ⟨depth + 1, .arr hdepth⟩
  | @obj members _ _ ih =>
      rw [canonicalChars_obj, canonicalMembers_eq_mapM] at h
      obtain ⟨pairs, hpairs, -⟩ := exists_of_map_eq_ok h
      have hvalues : ∀ v ∈ members.map Prod.snd, ∃ depth, Legible depth v := by
        intro v hv
        obtain ⟨m, hm, rfl⟩ := List.mem_map.mp hv
        obtain ⟨pair, hpair⟩ := exists_of_mem_mapM hpairs hm
        obtain ⟨text, htext, -⟩ := exists_of_map_eq_ok hpair
        exact ih m hm htext
      obtain ⟨depth, hdepth⟩ := exists_common_depth hvalues
      exact ⟨depth + 1, .obj fun m hm => hdepth m.2 (List.mem_map_of_mem hm)⟩

/-! ### From the values to the bytes -/

/-- Members with distinct names are sorted into one order, however they stood before. -/
theorem mergeSort_memberLe_eq_of_perm {pairs pairs' : List (String × List Char)}
    (hnames : (pairs.map Prod.fst).Nodup) (h : pairs.Perm pairs') :
    pairs.mergeSort memberLe = pairs'.mergeSort memberLe := by
  have htrans : ∀ a b c : String × List Char,
      memberLe a b = true → memberLe b c = true → memberLe a c = true := by
    intro a b c hab hbc
    rw [memberLe, decide_eq_true_eq] at hab hbc ⊢
    exact String.le_trans hab hbc
  have htotal : ∀ a b : String × List Char, (memberLe a b || memberLe b a) = true := by
    intro a b
    rw [Bool.or_eq_true, memberLe, memberLe, decide_eq_true_eq, decide_eq_true_eq]
    exact String.le_total a.1 b.1
  refine List.Perm.eq_of_pairwise ?_ (List.pairwise_mergeSort htrans htotal pairs)
    (List.pairwise_mergeSort htrans htotal pairs') ?_
  · intro a b ha hb hab hba
    rw [List.mem_mergeSort] at ha hb
    rw [memberLe, decide_eq_true_eq] at hab hba
    exact List.inj_on_of_nodup_map hnames ha (h.mem_iff.mpr hb) (String.le_antisymm hab hba)
  · exact (List.mergeSort_perm pairs memberLe).trans (h.trans (List.mergeSort_perm pairs' memberLe).symm)

theorem map_fst_of_canonicalMembers {members : List (String × Json)}
    {pairs : List (String × List Char)} (h : canonicalMembers members = .ok pairs) :
    pairs.map Prod.fst = members.map Prod.fst := by
  rw [canonicalMembers_eq_mapM, mapM_eq_ok_iff] at h
  rw [← List.forall₂_eq_eq_eq, List.forall₂_map_left_iff, List.forall₂_map_right_iff]
  refine h.flip.imp fun pair m hpair => ?_
  obtain ⟨text, -, rfl⟩ := exists_of_map_eq_ok hpair
  rfl

/-- A value has the canonical characters of any value that is equal to it up to the order of members. -/
theorem canonicalChars_of_alike {v w : Json} (h : v.Alike w) (hv : v.Proper) {cs : List Char}
    (hcs : canonicalChars v = .ok cs) : canonicalChars w = .ok cs := by
  induction h generalizing cs with
  | refl v => exact hcs
  | @arr items items' hlength _ ih =>
      cases hv with
      | arr hitems =>
          rw [canonicalChars_arr] at hcs ⊢
          obtain ⟨texts, htexts, rfl⟩ := exists_of_map_eq_ok hcs
          have hsame : List.Forall₂ (fun v w => ∀ text, canonicalChars v = .ok text →
              canonicalChars w = .ok text) items items' :=
            List.forall₂_iff_zip.mpr ⟨hlength, fun {v w} hp text htext =>
              ih (v, w) hp (hitems v (List.of_mem_zip hp).1) htext⟩
          rw [mapM_eq_ok_of_forall₂ hsame htexts]
          rfl
  | @obj members reordered members' hperm hlength hnames _ ih =>
      cases hv with
      | obj hdistinct hmembers =>
          rw [canonicalChars_obj] at hcs ⊢
          obtain ⟨pairs, hpairs, rfl⟩ := exists_of_map_eq_ok hcs
          have hnodup : (pairs.map Prod.fst).Nodup := by
            rw [map_fst_of_canonicalMembers hpairs]
            exact hdistinct
          have hsame : List.Forall₂ (fun m m' => ∀ pair,
              (canonicalChars m.2).map (fun text => (m.1, text)) = .ok pair →
              (canonicalChars m'.2).map (fun text => (m'.1, text)) = .ok pair) members reordered := by
            refine List.forall₂_iff_zip.mpr ⟨hlength, fun {m m'} hp pair hpair => ?_⟩
            obtain ⟨text, htext, rfl⟩ := exists_of_map_eq_ok hpair
            rw [ih (m, m') hp (hmembers m (List.of_mem_zip hp).1) htext, hnames (m, m') hp]
            rfl
          -- The members of the other object have the same texts in another order, which sorting undoes.
          rw [canonicalMembers_eq_mapM] at hpairs
          obtain ⟨pairs', hpairs', hreordered⟩ :=
            exists_perm_of_mapM hperm (mapM_eq_ok_of_forall₂ hsame hpairs)
          rw [canonicalMembers_eq_mapM, hpairs', mergeSort_memberLe_eq_of_perm hnodup hreordered]
          rfl

/-! ### Bytes -/

/-- The bytes of a value are its canonical characters in UTF-8. -/
theorem payloadBytes_eq_ok_iff {v : Json} {data : List UInt8} :
    Hasher.payloadBytes v = .ok data ↔
      ∃ cs, canonicalChars v = .ok cs ∧ (String.ofList cs).toUTF8.toList = data := by
  rw [Hasher.payloadBytes, canonical]
  cases canonicalChars v with
  | error fault => simp [Except.map]
  | ok cs => simp [Except.map]

/-- Two values without doubles, the members of whose objects have distinct names, have the same bytes
exactly when they are equal up to the order of members, at any depth. A value that is equal to one with
bytes up to this order has bytes as well. -/
theorem bytes_eq_iff_alike {v : Json} {data : List UInt8} (hv : v.Proper)
    (h : Hasher.payloadBytes v = .ok data) :
    (∀ w data', w.Proper → Hasher.payloadBytes w = .ok data' → (data = data' ↔ v.Alike w)) ∧
      ∀ w, v.Alike w → Hasher.payloadBytes w = .ok data := by
  obtain ⟨cs, hcs, rfl⟩ := payloadBytes_eq_ok_iff.mp h
  have hreordered : ∀ w, v.Alike w →
      Hasher.payloadBytes w = .ok (String.ofList cs).toUTF8.toList :=
    fun w halike => payloadBytes_eq_ok_iff.mpr ⟨cs, canonicalChars_of_alike halike hv hcs, rfl⟩
  refine ⟨?_, hreordered⟩
  intro w data' hw h'
  obtain ⟨cs', hcs', rfl⟩ := payloadBytes_eq_ok_iff.mp h'
  constructor
  · intro hdata
    have hread := Utf8.decode?_toUTF8 (String.ofList cs)
    rw [hdata, Utf8.decode?_toUTF8, Option.some.injEq, String.ofList_inj] at hread
    subst hread
    obtain ⟨depth, hlegible⟩ := exists_legible_of_canonicalChars hv hcs
    obtain ⟨depth', hlegible'⟩ := exists_legible_of_canonicalChars hw hcs'
    exact alike_of_sorted_eq hv
      ((spells_canonicalChars hlegible hcs).unique (spells_canonicalChars hlegible' hcs'))
  · intro halike
    rw [hreordered w halike] at h'
    exact Except.ok.inj h'

end Json

namespace Sample

/-- An object in an array in an object. -/
def nested : Json :=
  .obj [("b", .arr [.int 1, .obj [("y", .null), ("x", .bool true)]]), ("a", .str "s")]

/-- The same with the members of both objects in another order. -/
def rearranged : Json :=
  .obj [("a", .str "s"), ("b", .arr [.int 1, .obj [("x", .bool true), ("y", .null)]])]

theorem forall_mem_two {α : Type} {P : α → Prop} {a b : α} (ha : P a) (hb : P b) :
    ∀ x ∈ [a, b], P x := by
  rw [List.forall_mem_cons, List.forall_mem_singleton]
  exact ⟨ha, hb⟩

theorem proper_nested : nested.Proper := by
  have hinner : Json.Proper (.obj [("y", .null), ("x", .bool true)]) :=
    .obj (by decide) (forall_mem_two .null (.bool true))
  exact .obj (by decide) (forall_mem_two (.arr (forall_mem_two (.int 1) hinner)) (.str "s"))

theorem legible_nested : Json.Legible 3 nested := by
  have hinner : Json.Legible 1 (.obj [("y", .null), ("x", .bool true)]) :=
    .obj (forall_mem_two .null (.bool true))
  have hone : Json.Legible 1 (.int 1) := .int (by decide +kernel)
  exact .obj (forall_mem_two (.arr (forall_mem_two hone hinner)) (.str "s"))

theorem alike_nested : nested.Alike rearranged := by
  have hinner : Json.Alike (.obj [("y", .null), ("x", .bool true)])
      (.obj [("x", .bool true), ("y", .null)]) :=
    .obj (.swap _ _ []) rfl (forall_mem_two rfl rfl) (forall_mem_two (.refl _) (.refl _))
  exact .obj (.swap _ _ []) rfl (forall_mem_two rfl rfl)
    (forall_mem_two (.arr rfl (forall_mem_two (.refl _) hinner)) (.refl _))

end Sample

theorem Json.bytes_eq_iff_alike_nested :
    ∃ data data', Hasher.payloadBytes Sample.nested = .ok data ∧
      Hasher.payloadBytes Sample.rearranged = .ok data ∧
      Hasher.payloadBytes .null = .ok data' ∧ data ≠ data' := by
  obtain ⟨text, htext⟩ := exists_canonical Sample.legible_nested
  have h : Hasher.payloadBytes Sample.nested = .ok text.toUTF8.toList := by
    unfold Hasher.payloadBytes
    rw [htext]
  obtain ⟨hiff, hsame⟩ := bytes_eq_iff_alike Sample.proper_nested h
  have hnull : Hasher.payloadBytes .null = .ok (String.ofList ['n', 'u', 'l', 'l']).toUTF8.toList :=
    payloadBytes_eq_ok_iff.mpr ⟨_, rfl, rfl⟩
  refine ⟨_, _, h, hsame _ Sample.alike_nested, hnull, ?_⟩
  intro heq
  cases (hiff .null _ .null hnull).mp heq

end SumTree
