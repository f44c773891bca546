import SumTree.Proofs.Json.Reading

/-!
# Values are written

Both printers write texts of the value: the wire form a text of the value itself (`spells_wireChars`),
the canonical form a text of the value with the members of its objects sorted
(`spells_canonicalChars`). Since no two values share a text, the canonical form determines the value up
to the order of members.

## Main Definitions

* `Json.Legible` — the values that have a text.
* `Json.sorted` — a value with the members of its objects sorted by their names.
-/

namespace SumTree

namespace Json

/-! ### Characters -/

theorem spellsUnit_padded {unit : Nat} (h : unit < 0x10000) : SpellsUnit unit (Hex.padded 4 unit) :=
  ⟨Hex.length_padded (by decide) h, fun _ hc => Hex.isDigit_of_mem_padded hc, Hex.toNat_padded 4 unit⟩

theorem spellsChar_shortEscape {c : Char} {text : List Char} (h : shortEscape? c = some text) :
    SpellsChar c text := by
  unfold shortEscape? at h
  simp only [beq_iff_eq] at h
  split_ifs at h with hquote hslash hnewline hreturn htab hbackspace hfeed <;> cases h
  · exact .short (by rw [hquote]; rfl)
  · exact .short (by rw [hslash]; rfl)
  · exact .short (by rw [hnewline]; rfl)
  · exact .short (by rw [hreturn]; rfl)
  · exact .short (by rw [htab]; rfl)
  · exact .short (by rw [hbackspace]; rfl)
  · exact .short (by rw [hfeed]; rfl)

/-- A character without a short escape that is no control character may stand for itself. -/
theorem spellsChar_self {c : Char} (h : shortEscape? c = none) (hcontrol : 32 ≤ c.toNat) :
    SpellsChar c [c] := by
  refine .plain hcontrol ?_ ?_
  · rintro rfl
    cases h
  · rintro rfl
    cases h

theorem spellsChar_escapeMinimal (c : Char) : SpellsChar c (escapeMinimal c) := by
  unfold escapeMinimal
  cases hshort : shortEscape? c with
  | some text => exact spellsChar_shortEscape hshort
  | none =>
      show SpellsChar c (if c.toNat < 32 then unitEscape c.toNat else [c])
      split
      · exact .unit (spellsUnit_padded (by omega))
      · exact spellsChar_self hshort (by omega)

theorem spellsChar_pair {c : Char} {high low : Nat} (hbeyond : 0x10000 ≤ c.toNat)
    (hhigh : high = 0xd800 + (c.toNat - 0x10000) / 0x400)
    (hlow : low = 0xdc00 + (c.toNat - 0x10000) % 0x400) :
    SpellsChar c (unitEscape high ++ unitEscape low) := by
  have hvalid : c.toNat < 0xd800 ∨ 0xdfff < c.toNat ∧ c.toNat < 0x110000 := c.valid
  refine .pair hbeyond ?_ ?_
  · rw [← hhigh]
    exact spellsUnit_padded (by omega)
  · rw [← hlow]
    exact spellsUnit_padded (by omega)

theorem spellsChar_pointEscapes (c : Char) : SpellsChar c (pointEscapes c.toNat) := by
  unfold pointEscapes
  split
  · rename_i hbasic
    exact .unit (spellsUnit_padded hbasic)
  · rename_i hbeyond
    exact spellsChar_pair (Nat.le_of_not_lt hbeyond) rfl rfl

theorem spellsChar_escapeAscii (c : Char) : SpellsChar c (escapeAscii c) := by
  unfold escapeAscii
  cases hshort : shortEscape? c with
  | some text => exact spellsChar_shortEscape hshort
  | none =>
      show SpellsChar c (if 32 ≤ c.toNat && c.toNat < 127 then [c] else pointEscapes c.toNat)
      split
      · rename_i hplain
        simp only [Bool.and_eq_true, decide_eq_true_eq] at hplain
        exact spellsChar_self hshort hplain.1
      · exact spellsChar_pointEscapes c

theorem spellsString_quoted {escape : Char → List Char} (h : ∀ c, SpellsChar c (escape c))
    (s : String) : SpellsString s (quoted escape s) := by
  refine .quoted ?_
  induction s.toList with
  | nil => exact .nil
  | cons c rest ih =>
      rw [List.flatMap_cons]
      exact .cons (h c) ih

/-! ### Containers -/

/-- Blanks behind the commas are blanks in front of the elements. -/
theorem joinWith_blanks (blanks text : List Char) (texts : List (List Char)) :
    joinWith (',' :: blanks) (text :: texts) = joinWith [','] (text :: texts.map (blanks ++ ·)) := by
  induction texts generalizing text with
  | nil => rfl
  | cons next rest ih =>
      rw [joinWith_cons (List.cons_ne_nil next rest), ih, List.map_cons,
        joinWith_cons (List.cons_ne_nil _ _)]
      cases rest with
      | nil => simp [joinWith]
      | cons => simp [joinWith]

theorem spells_append {depth : Nat} {v : Json} {text blanks : List Char}
    (hblanks : ∀ b ∈ blanks, isSpace b = true) (h : Spells depth v text) :
    Spells depth v (blanks ++ text) := by
  induction blanks with
  | nil => exact h
  | cons b rest ih =>
      exact .before (hblanks b List.mem_cons_self) (ih fun d hd => hblanks d (List.mem_cons_of_mem b hd))

theorem spellsString_append {s : String} {text blanks : List Char}
    (hblanks : ∀ b ∈ blanks, isSpace b = true) (h : SpellsString s text) :
    SpellsString s (blanks ++ text) := by
  induction blanks with
  | nil => exact h
  | cons b rest ih =>
      exact .before (hblanks b List.mem_cons_self) (ih fun d hd => hblanks d (List.mem_cons_of_mem b hd))

/-- Elements with commas and blanks between them, in brackets, are a text of the array. -/
theorem spells_arr {depth : Nat} {blanks : List Char} (hblanks : ∀ b ∈ blanks, isSpace b = true)
    {pieces : List ItemPiece} (h : ∀ p ∈ pieces, Spells depth p.value p.text) :
    Spells (depth + 1) (.arr (pieces.map ItemPiece.value))
      ('[' :: (joinWith (',' :: blanks) (pieces.map ItemPiece.text) ++ [']'])) := by
  cases pieces with
  | nil => exact .emptyArr fun b hb => absurd hb List.not_mem_nil
  | cons first rest =>
      let shifted := rest.map fun p => (⟨p.value, blanks ++ p.text⟩ : ItemPiece)
      have hvalues : (first :: rest).map ItemPiece.value =
          (first :: shifted).map ItemPiece.value := by
        simp [shifted]
      have htexts : joinWith (',' :: blanks) ((first :: rest).map ItemPiece.text) =
          joinWith [','] ((first :: shifted).map ItemPiece.text) := by
        rw [List.map_cons, joinWith_blanks]
        simp [shifted, Function.comp_def]
      rw [hvalues, htexts]
      refine .arr (List.cons_ne_nil _ _) ?_
      intro p hp
      rcases List.mem_cons.mp hp with rfl | hp
      · exact h p List.mem_cons_self
      · obtain ⟨q, hq, rfl⟩ := List.mem_map.mp hp
        exact spells_append hblanks (h q (List.mem_cons_of_mem first hq))

/-- Members with commas and blanks between them, in braces, are a text of the object. -/
theorem spells_obj {depth : Nat} {blanks : List Char} (hblanks : ∀ b ∈ blanks, isSpace b = true)
    {pieces : List MemberPiece} (hnames : ∀ p ∈ pieces, SpellsString p.name p.nameText)
    (h : ∀ p ∈ pieces, Spells depth p.value p.valueText) :
    Spells (depth + 1) (.obj (pieces.map MemberPiece.member))
      ('{' :: (joinWith (',' :: blanks) (pieces.map MemberPiece.text) ++ ['}'])) := by
  cases pieces with
  | nil => exact .emptyObj fun b hb => absurd hb List.not_mem_nil
  | cons first rest =>
      let shifted := rest.map fun p =>
        (⟨p.name, blanks ++ p.nameText, p.value, p.valueText⟩ : MemberPiece)
      have hmembers : (first :: rest).map MemberPiece.member =
          (first :: shifted).map MemberPiece.member := by
        simp [shifted, MemberPiece.member]
      have htexts : joinWith (',' :: blanks) ((first :: rest).map MemberPiece.text) =
          joinWith [','] ((first :: shifted).map MemberPiece.text) := by
        rw [List.map_cons, joinWith_blanks]
        simp [shifted, Function.comp_def, MemberPiece.text]
      rw [hmembers, htexts]
      refine .obj (List.cons_ne_nil _ _) ?_ ?_
      · intro p hp
        rcases List.mem_cons.mp hp with rfl | hp
        · exact hnames p List.mem_cons_self
        · obtain ⟨q, hq, rfl⟩ := List.mem_map.mp hp
          exact spellsString_append hblanks (hnames q (List.mem_cons_of_mem first hq))
      · intro p hp
        rcases List.mem_cons.mp hp with rfl | hp
        · exact h p List.mem_cons_self
        · obtain ⟨q, hq, rfl⟩ := List.mem_map.mp hp
          exact h q (List.mem_cons_of_mem first hq)

/-- The values that have a text: their strings are Unicode text, their numbers are integers that may
be written, and at most `depth` containers are inside each other. -/
inductive Legible : Nat → Json → Prop
  | null {depth : Nat} : Legible depth .null
  | bool {depth : Nat} (b : Bool) : Legible depth (.bool b)
  | int {depth : Nat} {n : Int} (h : Decimal.fits n = true) : Legible depth (.int n)
  | str {depth : Nat} (s : String) : Legible depth (.str s)
  | arr {depth : Nat} {items : List Json} (h : ∀ v ∈ items, Legible depth v) :
    Legible (depth + 1) (.arr items)
  | obj {depth : Nat} {members : List (String × Json)} (h : ∀ m ∈ members, Legible depth m.2) :
    Legible (depth + 1) (.obj members)

theorem Legible.mono {depth depth' : Nat} {v : Json} (h : Legible depth v) (hle : depth ≤ depth') :
    Legible depth' v := by
  induction h generalizing depth' with
  | null => exact .null
  | bool b => exact .bool b
  | int hfits => exact .int hfits
  | str s => exact .str s
  | arr _ ih =>
      obtain ⟨less, rfl⟩ := Nat.exists_eq_add_of_le' (Nat.one_le_of_lt hle)
      exact .arr fun v hv => ih v hv (Nat.succ_le_succ_iff.mp hle)
  | obj _ ih =>
      obtain ⟨less, rfl⟩ := Nat.exists_eq_add_of_le' (Nat.one_le_of_lt hle)
      exact .obj fun m hm => ih m hm (Nat.succ_le_succ_iff.mp hle)

/-! ### The wire form -/

theorem wireItems_eq_map (items : List Json) : wireItems items = items.map wireChars := by
  induction items with
  | nil => rfl
  | cons v rest ih => rw [wireItems, ih, List.map_cons]

theorem wireMembers_eq_map (members : List (String × Json)) : wireMembers members =
    members.map fun m => quoted escapeAscii m.1 ++ [':', ' '] ++ wireChars m.2 := by
  induction members with
  | nil => rfl
  | cons m rest ih => rw [wireMembers, ih, List.map_cons]

theorem forall_blank : ∀ b ∈ [' '], isSpace b = true := by
  intro b hb
  rw [List.mem_singleton.mp hb]
  rfl

/-- The wire form of a value is a text of it. -/
theorem spells_wireChars {depth : Nat} {v : Json} (h : Legible depth v) :
    Spells depth v (wireChars v) := by
  induction h with
  | null => exact .null
  | bool b =>
      cases b with
      | true => exact .yes
      | false => exact .no
  | int hfits => exact .int hfits
  | str s => exact .str (spellsString_quoted spellsChar_escapeAscii s)
  | @arr depth items _ ih =>
      let pieces := items.map fun v => (⟨v, wireChars v⟩ : ItemPiece)
      have hpieces : ∀ p ∈ pieces, Spells depth p.value p.text := by
        intro p hp
        obtain ⟨v, hv, rfl⟩ := List.mem_map.mp hp
        exact ih v hv
      have hspells := spells_arr forall_blank hpieces
      rw [List.map_map, List.map_map] at hspells
      rw [wireChars, wireItems_eq_map]
      simpa [Function.comp_def] using hspells
  | @obj depth members _ ih =>
      let pieces := members.map fun m =>
        (⟨m.1, quoted escapeAscii m.1, m.2, ' ' :: wireChars m.2⟩ : MemberPiece)
      have hnames : ∀ p ∈ pieces, SpellsString p.name p.nameText := by
        intro p hp
        obtain ⟨m, -, rfl⟩ := List.mem_map.mp hp
        exact spellsString_quoted spellsChar_escapeAscii m.1
      have hpieces : ∀ p ∈ pieces, Spells depth p.value p.valueText := by
        intro p hp
        obtain ⟨m, hm, rfl⟩ := List.mem_map.mp hp
        exact .before rfl (ih m hm)
      have hspells := spells_obj forall_blank hnames hpieces
      rw [List.map_map, List.map_map] at hspells
      rw [wireChars, wireMembers_eq_map]
      simpa [Function.comp_def, MemberPiece.member, MemberPiece.text] using hspells

/-! ### The canonical form -/

/-- Whether the name of one member comes before that of another. -/
def nameLe (a b : String × Json) : Bool :=
  decide (a.1 ≤ b.1)

mutual

/-- A value with the members of its objects sorted by their names. -/
def sorted : Json → Json
  | arr items => .arr (sortedItems items)
  | obj members => .obj ((sortedMembers members).mergeSort nameLe)
  | v => v

/-- The elements of an array, each of them sorted. -/
def sortedItems : List Json → List Json
  | [] => []
  | item :: rest => sorted item :: sortedItems rest

/-- The members of an object in their order, the value of each of them sorted. -/
def sortedMembers : List (String × Json) → List (String × Json)
  | [] => []
  | (name, value) :: rest => (name, sorted value) :: sortedMembers rest

end

theorem sortedItems_eq_map (items : List Json) : sortedItems items = items.map sorted := by
  induction items with
  | nil => rfl
  | cons v rest ih => rw [sortedItems, ih, List.map_cons]

theorem sortedMembers_eq_map (members : List (String × Json)) :
    sortedMembers members = members.map fun m => (m.1, sorted m.2) := by
  induction members with
  | nil => rfl
  | cons m rest ih => rw [sortedMembers, ih, List.map_cons]

theorem canonicalItems_eq_mapM (items : List Json) :
    canonicalItems items = items.mapM canonicalChars := by
  induction items with
  | nil => rfl
  | cons v rest ih => rw [canonicalItems, ih, List.mapM_cons]

theorem canonicalMembers_eq_mapM (members : List (String × Json)) :
    canonicalMembers members =
      members.mapM fun m => (canonicalChars m.2).map fun text => (m.1, text) := by
  induction members with
  | nil => rfl
  | cons m rest ih =>
      rw [canonicalMembers, ih, List.mapM_cons]
      cases canonicalChars m.2 <;> rfl

theorem canonicalChars_arr (items : List Json) : canonicalChars (.arr items) =
    (items.mapM canonicalChars).map fun texts => '[' :: (joinWith [','] texts ++ [']']) := by
  unfold canonicalChars
  rw [canonicalItems_eq_mapM]
  cases items.mapM canonicalChars <;> rfl

theorem canonicalChars_obj (members : List (String × Json)) : canonicalChars (.obj members) =
    (canonicalMembers members).map fun pairs =>
      '{' :: (joinWith [','] ((pairs.mergeSort memberLe).map fun p =>
        quoted escapeMinimal p.1 ++ ':' :: p.2) ++ ['}']) := by
  conv_lhs => unfold canonicalChars
  cases canonicalMembers members <;> rfl

theorem exists_pieces_of_canonicalItems {depth : Nat} {items : List Json} {texts : List (List Char)}
    (h : canonicalItems items = .ok texts)
    (hitem : ∀ v ∈ items, ∀ text, canonicalChars v = .ok text → Spells depth (sorted v) text) :
    ∃ pieces : List ItemPiece, pieces.map ItemPiece.value = sortedItems items ∧
      pieces.map ItemPiece.text = texts ∧ ∀ p ∈ pieces, Spells depth p.value p.text := by
  induction items generalizing texts with
  | nil =>
      cases h
      exact ⟨[], rfl, rfl, fun p hp => absurd hp List.not_mem_nil⟩
  | cons v rest ih =>
      rw [canonicalItems] at h
      obtain ⟨text, htext, h⟩ := exists_of_bind_eq_ok h
      obtain ⟨others, hothers, h⟩ := exists_of_bind_eq_ok h
      cases h
      obtain ⟨pieces, hvalues, htexts, hpieces⟩ :=
        ih hothers fun w hw => hitem w (List.mem_cons_of_mem v hw)
      refine ⟨⟨sorted v, text⟩ :: pieces, ?_, ?_, ?_⟩
      · rw [List.map_cons, hvalues, sortedItems]
      · rw [List.map_cons, htexts]
      · intro p hp
        rcases List.mem_cons.mp hp with rfl | hp
        · exact hitem v List.mem_cons_self text htext
        · exact hpieces p hp

theorem exists_pieces_of_canonicalMembers {depth : Nat} {members : List (String × Json)}
    {pairs : List (String × List Char)} (h : canonicalMembers members = .ok pairs)
    (hmember : ∀ m ∈ members, ∀ text, canonicalChars m.2 = .ok text → Spells depth (sorted m.2) text) :
    ∃ pieces : List MemberPiece, pieces.map MemberPiece.member = sortedMembers members ∧
      pieces.map (fun p => (p.name, p.valueText)) = pairs ∧
      (∀ p ∈ pieces, p.nameText = quoted escapeMinimal p.name) ∧
      ∀ p ∈ pieces, Spells depth p.value p.valueText := by
  induction members generalizing pairs with
  | nil =>
      cases h
      exact ⟨[], rfl, rfl, fun p hp => absurd hp List.not_mem_nil,
        fun p hp => absurd hp List.not_mem_nil⟩
  | cons m rest ih =>
      rw [canonicalMembers] at h
      obtain ⟨text, htext, h⟩ := exists_of_bind_eq_ok h
      obtain ⟨others, hothers, h⟩ := exists_of_bind_eq_ok h
      cases h
      obtain ⟨pieces, hmembers, hpairs, hnames, hpieces⟩ :=
        ih hothers fun n hn => hmember n (List.mem_cons_of_mem m hn)
      refine ⟨⟨m.1, quoted escapeMinimal m.1, sorted m.2, text⟩ :: pieces, ?_, ?_, ?_, ?_⟩
      · rw [List.map_cons, hmembers, sortedMembers]
        rfl
      · rw [List.map_cons, hpairs]
      · intro p hp
        rcases List.mem_cons.mp hp with rfl | hp
        · rfl
        · exact hnames p hp
      · intro p hp
        rcases List.mem_cons.mp hp with rfl | hp
        · exact hmember m List.mem_cons_self text htext
        · exact hpieces p hp

/-- Members sorted by their names are spelled by their texts sorted so. -/
theorem spells_sortedPieces {depth : Nat} {pieces : List MemberPiece}
    (hnames : ∀ p ∈ pieces, p.nameText = quoted escapeMinimal p.name)
    (hpieces : ∀ p ∈ pieces, Spells depth p.value p.valueText) :
    Spells (depth + 1) (.obj ((pieces.map MemberPiece.member).mergeSort nameLe))
      ('{' :: (joinWith [','] (((pieces.map fun p => (p.name, p.valueText)).mergeSort memberLe).map
        fun p => quoted escapeMinimal p.1 ++ ':' :: p.2) ++ ['}'])) := by
  -- The pieces are sorted as the members and the pairs of names and texts are.
  let nameTextLe := fun p q : MemberPiece => decide (p.name ≤ q.name)
  have hsorted : (pieces.mergeSort nameTextLe).map MemberPiece.member =
      (pieces.map MemberPiece.member).mergeSort nameLe :=
    List.map_mergeSort fun _ _ _ _ => rfl
  have hpairs : (pieces.mergeSort nameTextLe).map (fun p => (p.name, p.valueText)) =
      (pieces.map fun p => (p.name, p.valueText)).mergeSort memberLe :=
    List.map_mergeSort fun _ _ _ _ => rfl
  have htexts : (pieces.mergeSort nameTextLe).map MemberPiece.text =
      ((pieces.map fun p => (p.name, p.valueText)).mergeSort memberLe).map
        fun p => quoted escapeMinimal p.1 ++ ':' :: p.2 := by
    rw [← hpairs, List.map_map]
    apply List.map_congr_left
    intro p hp
    rw [MemberPiece.text, hnames p (List.mem_mergeSort.mp hp)]
    rfl
  have hspells := @spells_obj depth [] (fun b hb => absurd hb List.not_mem_nil)
    (pieces.mergeSort nameTextLe) ?_ fun p hp => hpieces p (List.mem_mergeSort.mp hp)
  · rw [hsorted, htexts] at hspells
    exact hspells
  · intro p hp
    rw [hnames p (List.mem_mergeSort.mp hp)]
    exact spellsString_quoted spellsChar_escapeMinimal p.name

theorem canonicalChars_int {n : Int} (h : Decimal.fits n = true) :
    canonicalChars (.int n) = .ok (Decimal.render n).toList := by
  have hwrite := Decimal.write?_of_fits h
  clear h
  unfold int canonicalChars
  rw [hwrite]

/-- Only integers that may be written have canonical characters. -/
theorem fits_of_canonicalChars_int {n : Int} {cs : List Char} (h : canonicalChars (.int n) = .ok cs) :
    Decimal.fits n = true := by
  cases hfits : Decimal.fits n with
  | true => rfl
  | false =>
      have hwrite : Decimal.write? n = none := by
        unfold Decimal.write?
        rw [hfits]
        rfl
      clear hfits
      unfold int canonicalChars at h
      rw [hwrite] at h
      cases h

/-- The canonical form of a value is a text of the sorted value. -/
theorem spells_canonicalChars {depth : Nat} {v : Json} {text : List Char} (hlegible : Legible depth v)
    (h : canonicalChars v = .ok text) : Spells depth (sorted v) text := by
  induction hlegible generalizing text with
  | null =>
      cases h
      exact .null
  | bool b =>
      cases b with
      | true =>
          cases h
          exact .yes
      | false =>
          cases h
          exact .no
  | int hfits =>
      rw [canonicalChars_int hfits] at h
      cases h
      exact .int hfits
  | str s =>
      cases h
      exact .str (spellsString_quoted spellsChar_escapeMinimal s)
  | @arr depth items _ ih =>
      unfold canonicalChars at h
      obtain ⟨texts, htexts, h⟩ := exists_of_bind_eq_ok h
      cases h
      obtain ⟨pieces, hvalues, rfl, hpieces⟩ :=
        exists_pieces_of_canonicalItems htexts fun v hv _ => ih v hv
      rw [sorted, ← hvalues]
      exact spells_arr (fun b hb => absurd hb List.not_mem_nil) hpieces
  | @obj depth members _ ih =>
      unfold canonicalChars at h
      obtain ⟨pairs, hpairs, h⟩ := exists_of_bind_eq_ok h
      cases h
      obtain ⟨pieces, hmembers, rfl, hnames, hpieces⟩ :=
        exists_pieces_of_canonicalMembers hpairs fun m hm _ => ih m hm
      rw [sorted, ← hmembers]
      exact spells_sortedPieces hnames hpieces

/-- A value that has a text has a canonical form. -/
theorem exists_canonical {depth : Nat} {v : Json} (h : Legible depth v) :
    ∃ text, canonical v = .ok text := by
  have hchars : ∃ cs, canonicalChars v = .ok cs := by
    induction h with
    | null => exact ⟨_, rfl⟩
    | bool b => cases b <;> exact ⟨_, rfl⟩
    | int hfits => exact ⟨_, canonicalChars_int hfits⟩
    | str s => exact ⟨_, rfl⟩
    | arr _ ih =>
        obtain ⟨texts, htexts⟩ := exists_mapM_eq_ok ih
        rw [canonicalChars_arr, htexts]
        exact ⟨_, rfl⟩
    | @obj depth members _ ih =>
        have hpairs : ∃ pairs, canonicalMembers members = .ok pairs := by
          rw [canonicalMembers_eq_mapM]
          apply exists_mapM_eq_ok
          intro m hm
          obtain ⟨text, htext⟩ := ih m hm
          rw [htext]
          exact ⟨_, rfl⟩
        obtain ⟨pairs, hpairs⟩ := hpairs
        rw [canonicalChars_obj, hpairs]
        exact ⟨_, rfl⟩
  obtain ⟨cs, hcs⟩ := hchars
  refine ⟨String.ofList cs, ?_⟩
  rw [canonical, hcs]
  rfl

/-- The canonical form determines the value up to the order of members. -/
theorem sorted_eq_of_canonical {depth depth' : Nat} {v v' : Json} {text : String}
    (hlegible : Legible depth v) (hlegible' : Legible depth' v') (h : canonical v = .ok text)
    (h' : canonical v' = .ok text) : sorted v = sorted v' := by
  obtain ⟨cs, hcs, rfl⟩ := exists_of_map_eq_ok h
  obtain ⟨cs', hcs', hofList⟩ := exists_of_map_eq_ok h'
  rw [String.ofList_inj.mp hofList] at hcs'
  exact (spells_canonicalChars hlegible hcs).unique (spells_canonicalChars hlegible' hcs')

end Json

end SumTree
