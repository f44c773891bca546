import Mathlib.Data.Char
import SumTree.Proofs.Except
import SumTree.Proofs.Json.Grammar
import SumTree.Proofs.Number.Decimal
import SumTree.Proofs.Text.Hex

/-!
# Texts are read

The reader takes every text of a value off the front of a longer text, and what it leaves begins, blanks
apart, where the text ended (`reads_of_spells`). A whole text is therefore read as its value
(`readChars_of_spells`), and no two values share a text.

A number is the only value whose end is not marked by a character of its own, so something has to be
asked of what stands behind a value: the end of the text, a blank, a comma or a closing bracket (`Ends`).
The fuel of the loops is the length of the whole text; every element uses up at least the character
that follows it.
-/

namespace SumTree

namespace Json

/-! ### Blanks -/

theorem skipSpace_cons_of_blank {c : Char} (h : isSpace c = true) (cs : List Char) :
    skipSpace (c :: cs) = skipSpace cs := by
  unfold skipSpace
  rw [List.dropWhile_cons_of_pos h]

theorem skipSpace_cons_of_ne {c : Char} (h : isSpace c = false) (cs : List Char) :
    skipSpace (c :: cs) = c :: cs := by
  unfold skipSpace
  rw [List.dropWhile_cons_of_neg (by simp [h])]

theorem skipSpace_append_of_blanks {blanks : List Char} (h : ∀ b ∈ blanks, isSpace b = true)
    (cs : List Char) : skipSpace (blanks ++ cs) = skipSpace cs := by
  induction blanks with
  | nil => rfl
  | cons b rest ih =>
      rw [List.cons_append, skipSpace_cons_of_blank (h b List.mem_cons_self)]
      exact ih fun d hd => h d (List.mem_cons_of_mem b hd)

theorem skipSpace_skipSpace (cs : List Char) : skipSpace (skipSpace cs) = skipSpace cs := by
  induction cs with
  | nil => rfl
  | cons c rest ih =>
      cases hc : isSpace c with
      | true => rw [skipSpace_cons_of_blank hc, ih]
      | false => rw [skipSpace_cons_of_ne hc, skipSpace_cons_of_ne hc]

/-! ### Strings -/

theorem SpellsUnit.readPoints {unit : Nat} {digits : List Char} (h : SpellsUnit unit digits)
    (begun : Nat) (done : List Nat) {rest : List Char} (hrest : rest ≠ []) :
    Json.readPoints begun done ('\\' :: 'u' :: (digits ++ rest)) =
      Json.readPoints begun (unit :: done) rest := by
  obtain ⟨hlength, hdigits, rfl⟩ := h
  match digits, hlength with
  | [a, b, c, d], _ =>
    have hall : ([a, b, c, d].all Hex.isDigit && !rest.isEmpty) = true := by
      rw [List.all_eq_true.mpr hdigits, List.isEmpty_eq_false_iff.mpr hrest]
      rfl
    show Json.readPoints begun done ('\\' :: 'u' :: a :: b :: c :: d :: rest) = _
    rw [Json.readPoints, if_pos hall]

theorem joinPairs_cons {point : Nat} (h : isHigh point = false) (points : List Nat) :
    joinPairs (point :: points) = point :: joinPairs points := by
  cases points with
  | nil => rfl
  | cons next rest => rw [joinPairs, h, Bool.false_and, if_neg Bool.false_ne_true]

theorem joinPairs_pair {high low : Nat} (hhigh : isHigh high = true) (hlow : isLow low = true)
    (points : List Nat) : joinPairs (high :: low :: points) =
      (0x10000 + 0x400 * (high - 0xd800) + (low - 0xdc00)) :: joinPairs points := by
  rw [joinPairs, hhigh, hlow, Bool.and_self, if_pos rfl]

/-- The surrogate pair of a character is joined to it. -/
theorem joinPairs_surrogates {c : Char} (hbeyond : 0x10000 ≤ c.toNat) (points : List Nat) :
    joinPairs ((0xd800 + (c.toNat - 0x10000) / 0x400) :: (0xdc00 + (c.toNat - 0x10000) % 0x400) ::
      points) = c.toNat :: joinPairs points := by
  have hvalid : c.toNat < 0xd800 ∨ 0xdfff < c.toNat ∧ c.toNat < 0x110000 := c.valid
  have hhigh : isHigh (0xd800 + (c.toNat - 0x10000) / 0x400) = true := by
    simp only [isHigh, Bool.and_eq_true, decide_eq_true_eq]
    omega
  have hlow : isLow (0xdc00 + (c.toNat - 0x10000) % 0x400) = true := by
    simp only [isLow, Bool.and_eq_true, decide_eq_true_eq]
    omega
  have hjoined : 0x10000 + 0x400 * (0xd800 + (c.toNat - 0x10000) / 0x400 - 0xd800) +
      (0xdc00 + (c.toNat - 0x10000) % 0x400 - 0xdc00) = c.toNat := by omega
  rw [joinPairs_pair hhigh hlow, hjoined]

/-- No character is half of a surrogate pair. -/
theorem not_surrogate (c : Char) : isHigh c.toNat = false ∧ isLow c.toNat = false := by
  have hvalid : c.toNat < 0xd800 ∨ 0xdfff < c.toNat ∧ c.toNat < 0x110000 := c.valid
  simp only [isHigh, isLow, Bool.and_eq_false_iff, decide_eq_false_iff_not]
  omega

/-- A text of a character is read as points that join to it, whatever follows. -/
theorem exists_points_of_spellsChar {c : Char} {text : List Char} (h : SpellsChar c text) :
    ∃ points, (∀ begun done rest, rest ≠ [] →
        readPoints begun done (text ++ rest) = readPoints begun (points.reverse ++ done) rest) ∧
      ∀ others, joinPairs (points ++ others) = c.toNat :: joinPairs others := by
  cases h with
  | plain hcontrol hquote hslash =>
      refine ⟨[c.toNat], ?_, joinPairs_cons (not_surrogate c).1⟩
      intro begun done rest _
      show readPoints begun done (c :: rest) = _
      rw [readPoints]
      · exact if_neg (by omega)
      · exact hquote
      · intro _ _ _ _ _ heq
        exact absurd heq hslash
      · intro _ _ heq
        exact absurd heq hslash
  | short h =>
      rename_i letter
      refine ⟨[c.toNat], ?_, joinPairs_cons (not_surrogate c).1⟩
      intro begun done rest _
      show readPoints begun done ('\\' :: letter :: rest) = _
      rw [readPoints, h]
      · rfl
      · rintro _ _ _ _ _ rfl
        have hnone : shortEscapes.lookup 'u' = none := rfl
        rw [hnone] at h
        cases h
  | unit h =>
      refine ⟨[c.toNat], ?_, joinPairs_cons (not_surrogate c).1⟩
      intro begun done rest hrest
      exact h.readPoints begun done hrest
  | pair hbeyond hhigh hlow =>
      refine ⟨[0xd800 + (c.toNat - 0x10000) / 0x400, 0xdc00 + (c.toNat - 0x10000) % 0x400], ?_,
        joinPairs_surrogates hbeyond⟩
      intro begun done rest hrest
      rw [List.cons_append, List.cons_append, List.append_assoc, hhigh.readPoints _ _ (by simp)]
      exact hlow.readPoints begun _ hrest

theorem exists_points_of_spellsBody {cs body : List Char} (h : SpellsBody cs body) :
    ∃ points, (∀ begun done rest, rest ≠ [] →
        readPoints begun done (body ++ rest) = readPoints begun (points.reverse ++ done) rest) ∧
      joinPairs points = cs.map Char.toNat := by
  induction h with
  | nil => exact ⟨[], fun _ _ _ _ => rfl, rfl⟩
  | cons hchar _ ih =>
      obtain ⟨front, hfront, hjoined⟩ := exists_points_of_spellsChar hchar
      obtain ⟨back, hback, hcs⟩ := ih
      refine ⟨front ++ back, ?_, ?_⟩
      · intro begun done rest hrest
        rw [List.append_assoc, hfront _ _ _ (by simp [hrest]), hback _ _ _ hrest, List.reverse_append, List.append_assoc]
      · rw [hjoined, hcs, List.map_cons]

/-- A string is read up to its closing quote. -/
theorem readString_of_spellsBody (dialect : Dialect) {s : String} {body : List Char}
    (h : SpellsBody s.toList body) (rest : List Char) :
    readString dialect (body ++ '"' :: rest) = .ok (.str s, rest) := by
  obtain ⟨points, hread, hjoined⟩ := exists_points_of_spellsBody h
  have hpoints : readPoints ((body ++ '"' :: rest).length + 1) [] (body ++ '"' :: rest) =
      .ok (points, rest) := by
    rw [hread _ _ _ (List.cons_ne_nil _ _), readPoints, List.append_nil, List.reverse_reverse]
  have hwhole : (s.toList.map Char.toNat).all (fun p => !(isHigh p || isLow p)) = true := by
    rw [List.all_map, List.all_eq_true]
    intro c _
    simp [not_surrogate c]
  have hback : (s.toList.map Char.toNat).map Char.ofNat = s.toList := by
    rw [List.map_map]
    exact (List.map_congr_left fun c _ => Char.ofNat_toNat c).trans (List.map_id _)
  unfold readString
  simp only [hpoints, hjoined, bind, Except.bind, hwhole, if_true, hback, String.ofList_toList]
  rfl

/-! ### Numbers -/

/-- A character that may stand behind a value. -/
def isEnd (c : Char) : Bool :=
  isSpace c || c == ',' || c == ']' || c == '}'

/-- What may stand behind a value. -/
def Ends (rest : List Char) : Prop :=
  ∀ c tail, rest = c :: tail → isEnd c = true

theorem ends_nil : Ends [] := by
  intro c tail h
  cases h

theorem ends_cons {c : Char} (h : isEnd c = true) (rest : List Char) : Ends (c :: rest) := by
  intro d tail heq
  cases heq
  exact h

theorem isEnd_of_isSpace {c : Char} (h : isSpace c = true) : isEnd c = true := by
  unfold isEnd
  rw [h, Bool.true_or, Bool.true_or, Bool.true_or]

/-- What stands behind a value continues no number. -/
theorem not_isAscii_of_isEnd {c : Char} (h : isEnd c = true) :
    Digit.isAscii c = false ∧ c ≠ '.' ∧ c ≠ 'e' ∧ c ≠ 'E' := by
  simp only [isEnd, isSpace, Bool.or_eq_true, beq_iff_eq] at h
  rcases h with ((((((rfl | rfl) | rfl) | rfl) | rfl) | rfl) | rfl) <;> decide

theorem takeWhile_digits {ds rest : List Char} (h : ∀ c ∈ ds, Digit.isAscii c = true)
    (hends : Ends rest) : (ds ++ rest).takeWhile Digit.isAscii = ds := by
  rw [List.takeWhile_append_of_pos h]
  cases rest with
  | nil => rw [List.takeWhile_nil, List.append_nil]
  | cons c tail =>
      have hc := (not_isAscii_of_isEnd (hends c tail rfl)).1
      rw [List.takeWhile_cons_of_neg (by simp [hc]), List.append_nil]

theorem wholeDigits_append {ds rest : List Char} (hne : ds ≠ [])
    (h : ∀ c ∈ ds, Digit.isAscii c = true) (hzero : ∀ tail, ds = '0' :: tail → tail = [])
    (hends : Ends rest) (begun : Nat) : wholeDigits begun (ds ++ rest) = .ok ds := by
  obtain ⟨first, tail, rfl⟩ := List.exists_cons_of_ne_nil hne
  by_cases hfirst : first = '0'
  · subst hfirst
    rw [hzero tail rfl]
    rfl
  · have htake := takeWhile_digits h hends
    show wholeDigits begun (first :: (tail ++ rest)) = _
    rw [wholeDigits, if_pos (h first List.mem_cons_self)]
    · exact congrArg Except.ok htake
    · exact hfirst

theorem splitFraction_of_ends {rest : List Char} (h : Ends rest) : splitFraction rest = ([], rest) := by
  unfold splitFraction
  split
  · rename_i tail
    exact absurd rfl (not_isAscii_of_isEnd (h '.' tail rfl)).2.1
  · rfl

theorem splitPower_of_ends {rest : List Char} (h : Ends rest) : splitPower rest = ([], rest) := by
  unfold splitPower
  split
  · rename_i e tail
    obtain ⟨-, -, hlower, hupper⟩ := not_isAscii_of_isEnd (h e tail rfl)
    rw [if_neg (by simp [hlower, hupper])]
  · rfl

/-- The numeral of an integer is read as that integer. -/
theorem readNumber_render {n : Int} (hfits : Decimal.fits n = true) {rest : List Char}
    (hends : Ends rest) :
    readNumber ((Decimal.render n).toList ++ rest) = .ok (.int n, rest) := by
  have hne := Decimal.digits_ne_nil n.natAbs
  have hdigits : ∀ c ∈ Decimal.digits n.natAbs, Digit.isAscii c = true :=
    fun _ hc => Decimal.isAscii_of_mem_digits hc
  have hsplit : splitMinus ((Decimal.render n).toList ++ rest) =
      (decide (n < 0), Decimal.digits n.natAbs ++ rest) := by
    rw [Decimal.render, String.toList_ofList]
    by_cases hneg : n < 0
    · rw [if_pos hneg, decide_eq_true hneg]
      rfl
    · rw [if_neg hneg, decide_eq_false hneg, List.nil_append]
      obtain ⟨first, tail, hds⟩ := List.exists_cons_of_ne_nil hne
      rw [hds, List.cons_append, splitMinus]
      have hfirst : first ∈ Decimal.digits n.natAbs := by
        rw [hds]
        exact List.mem_cons_self
      intro _ hminus
      exact Decimal.ne_of_isAscii (hdigits first hfirst) rfl (List.cons.inj hminus).1
  have hzero : ∀ tail, Decimal.digits n.natAbs = '0' :: tail → tail = [] := by
    intro tail htail
    rw [Decimal.eq_zero_of_head_digits htail] at htail
    exact (List.cons.inj htail).2.symm
  have hwhole := wholeDigits_append hne hdigits hzero hends
  have hlength : ¬ (Decimal.digits n.natAbs).length > Decimal.maxDigits :=
    Nat.not_lt.mpr (Decimal.length_digits_of_fits hfits)
  have hsigned := Decimal.signed_natAbs n
  clear hfits
  unfold readNumber
  simp only [hsplit, hwhole, bind, Except.bind, List.drop_left, splitFraction_of_ends hends,
    splitPower_of_ends hends, List.isEmpty_nil, Bool.and_self, if_true, if_neg hlength,
    decide_eq_true_eq, Decimal.ofDigits_digits, hsigned]
  rfl

/-! ### Scalars -/

theorem readScalar_null (rest : List Char) :
    readScalar ('n' :: 'u' :: 'l' :: 'l' :: rest) = .ok (.null, rest) := rfl

theorem readScalar_true (rest : List Char) :
    readScalar ('t' :: 'r' :: 'u' :: 'e' :: rest) = .ok (.bool true, rest) := rfl

theorem readScalar_false (rest : List Char) :
    readScalar ('f' :: 'a' :: 'l' :: 's' :: 'e' :: rest) = .ok (.bool false, rest) := rfl

theorem afterWord?_cons {word : String} {first c : Char} {tail : List Char}
    (hword : word.toList = first :: tail) (h : (first == c) = false) (cs : List Char) :
    afterWord? word (c :: cs) = none := by
  unfold afterWord?
  rw [hword, List.isPrefixOf_cons_cons, h, Bool.false_and, if_neg Bool.false_ne_true]

theorem readScalar_eq_readNumber {cs : List Char} (h : ∀ w ∈ words, afterWord? w.1 cs = none) :
    readScalar cs = readNumber cs := by
  have hnone : words.findSome? (fun w => (afterWord? w.1 cs).map fun rest => (w.2, rest)) = none := by
    rw [List.findSome?_eq_none_iff]
    intro w hw
    rw [h w hw, Option.map_none]
  unfold readScalar
  rw [hnone]

/-- A digit, also one behind a minus, starts no word. -/
theorem readScalar_of_isAscii {c : Char} (h : Digit.isAscii c = true) (cs : List Char) :
    readScalar (c :: cs) = readNumber (c :: cs) ∧
      readScalar ('-' :: c :: cs) = readNumber ('-' :: c :: cs) := by
  have hminus : ('-' == c) = false := beq_eq_false_iff_ne.mpr (Decimal.ne_of_isAscii h rfl).symm
  have hletter : ∀ letter : Char, 57 < letter.toNat → (letter == c) = false := by
    intro letter hletter
    have hbound := Decimal.toNat_of_isAscii h
    rw [beq_eq_false_iff_ne]
    rintro rfl
    omega
  constructor
  · apply readScalar_eq_readNumber
    intro w hw
    simp only [words, List.mem_cons, List.not_mem_nil, or_false] at hw
    rcases hw with rfl | rfl | rfl | rfl | rfl | rfl
    · exact afterWord?_cons rfl (hletter 'n' (by decide)) cs
    · exact afterWord?_cons rfl (hletter 't' (by decide)) cs
    · exact afterWord?_cons rfl (hletter 'f' (by decide)) cs
    · exact afterWord?_cons rfl (hletter 'N' (by decide)) cs
    · exact afterWord?_cons rfl (hletter 'I' (by decide)) cs
    · exact afterWord?_cons rfl hminus cs
  · apply readScalar_eq_readNumber
    intro w hw
    simp only [words, List.mem_cons, List.not_mem_nil, or_false] at hw
    rcases hw with rfl | rfl | rfl | rfl | rfl | rfl
    · rfl
    · rfl
    · rfl
    · rfl
    · rfl
    · have hword : "-Infinity".toList = '-' :: 'I' :: "nfinity".toList := rfl
      unfold afterWord?
      rw [hword, List.isPrefixOf_cons_cons, List.isPrefixOf_cons_cons, hletter 'I' (by decide),
        Bool.false_and, Bool.and_false, if_neg Bool.false_ne_true]

/-! ### Values -/

/-- A reader takes every text of a value off the front of a longer text; of the blanks behind it some
may be left. -/
def Reads (reader : Reader Json) (v : Json) (text : List Char) : Prop :=
  ∀ rest, Ends rest → ∃ rest', reader (skipSpace (text ++ rest)) = .ok (v, rest') ∧
    skipSpace rest' = skipSpace rest

theorem readValue_eq_readScalar {dialect : Dialect} {size depth : Nat} {c : Char} {cs : List Char}
    (hquote : c ≠ '"') (hbracket : c ≠ '[') (hbrace : c ≠ '{') :
    readValue dialect size depth (c :: cs) = readScalar (c :: cs) := by
  unfold readValue
  split <;> rename_i heq
  · exact absurd (List.cons.inj heq).1 hquote
  · exact absurd (List.cons.inj heq).1 hbracket
  · exact absurd (List.cons.inj heq).1 hbrace
  · exact absurd (List.cons.inj heq).1 hbracket
  · exact absurd (List.cons.inj heq).1 hbrace
  · rfl

theorem readValue_quote (dialect : Dialect) (size depth : Nat) (cs : List Char) :
    readValue dialect size depth ('"' :: cs) = readString dialect cs := by
  cases depth <;> rfl

theorem Reads.before {reader : Reader Json} {v : Json} {text : List Char} {b : Char}
    (hblank : isSpace b = true) (h : Reads reader v text) : Reads reader v (b :: text) := by
  intro rest hends
  rw [List.cons_append, skipSpace_cons_of_blank hblank]
  exact h rest hends

theorem Reads.after {reader : Reader Json} {v : Json} {text : List Char} {b : Char}
    (hblank : isSpace b = true) (h : Reads reader v text) : Reads reader v (text ++ [b]) := by
  intro rest hends
  obtain ⟨rest', hread, hrest⟩ := h (b :: rest) (ends_cons (isEnd_of_isSpace hblank) rest)
  refine ⟨rest', ?_, ?_⟩
  · rw [List.append_assoc]
    exact hread
  · rw [hrest, skipSpace_cons_of_blank hblank]

/-- A text that is read from its first character on, with nothing left, is read. -/
theorem reads_of_eq {reader : Reader Json} {v : Json} {c : Char} {cs : List Char}
    (hblank : isSpace c = false)
    (h : ∀ rest, Ends rest → reader (c :: (cs ++ rest)) = .ok (v, rest)) : Reads reader v (c :: cs) := by
  intro rest hends
  refine ⟨rest, ?_, rfl⟩
  rw [List.cons_append, skipSpace_cons_of_ne hblank]
  exact h rest hends

section

variable {dialect : Dialect} {size depth : Nat}

/-- A scalar is read from a character on that opens neither a string nor a container. -/
theorem reads_scalar {v : Json} {c : Char} {cs : List Char} (hblank : isSpace c = false)
    (hopen : c ≠ '"' ∧ c ≠ '[' ∧ c ≠ '{')
    (h : ∀ rest, Ends rest → readScalar (c :: (cs ++ rest)) = .ok (v, rest)) :
    Reads (readValue dialect size depth) v (c :: cs) := by
  apply reads_of_eq hblank
  intro rest hends
  rw [readValue_eq_readScalar hopen.1 hopen.2.1 hopen.2.2]
  exact h rest hends

theorem reads_render {n : Int} (hfits : Decimal.fits n = true) :
    Reads (readValue dialect size depth) (.int n) (Decimal.render n).toList := by
  obtain ⟨first, tail, hds⟩ := List.exists_cons_of_ne_nil (Decimal.digits_ne_nil n.natAbs)
  have hfirst : Digit.isAscii first = true := by
    apply @Decimal.isAscii_of_mem_digits n.natAbs
    rw [hds]
    exact List.mem_cons_self
  have hread : ∀ rest, Ends rest →
      readNumber ((Decimal.render n).toList ++ rest) = .ok (.int n, rest) :=
    fun rest hends => readNumber_render hfits hends
  rw [Decimal.render, String.toList_ofList, hds] at hread ⊢
  clear hfits
  by_cases hneg : n < 0
  · rw [if_pos hneg] at hread ⊢
    apply reads_scalar rfl (by decide)
    intro rest hends
    exact (readScalar_of_isAscii hfirst _).2.trans (hread rest hends)
  · rw [if_neg hneg] at hread ⊢
    have hblank : isSpace first = false := by
      cases hspace : isSpace first with
      | false => rfl
      | true =>
          have hnot := (not_isAscii_of_isEnd (isEnd_of_isSpace hspace)).1
          rw [hfirst] at hnot
          cases hnot
    apply reads_scalar hblank ⟨Decimal.ne_of_isAscii hfirst rfl, Decimal.ne_of_isAscii hfirst rfl,
      Decimal.ne_of_isAscii hfirst rfl⟩
    intro rest hends
    exact (readScalar_of_isAscii hfirst _).1.trans (hread rest hends)

/-- Behind the blanks in front of a string stands its quote. -/
theorem exists_of_spellsString (dialect : Dialect) {s : String} {text : List Char}
    (h : SpellsString s text) (rest : List Char) :
    ∃ cs rest', skipSpace (text ++ rest) = '"' :: cs ∧ readString dialect cs = .ok (.str s, rest') ∧
      skipSpace rest' = skipSpace rest := by
  induction h generalizing rest with
  | quoted hbody =>
      rename_i body
      refine ⟨body ++ '"' :: rest, rest, ?_, readString_of_spellsBody dialect hbody rest, rfl⟩
      rw [List.cons_append, List.append_assoc]
      exact skipSpace_cons_of_ne rfl _
  | before hblank _ ih =>
      rw [List.cons_append, skipSpace_cons_of_blank hblank]
      exact ih rest
  | after hblank _ ih =>
      obtain ⟨cs, rest', hskip, hread, hrest⟩ := ih (_ :: rest)
      refine ⟨cs, rest', ?_, hread, ?_⟩
      · rw [List.append_assoc]
        exact hskip
      · rw [hrest, skipSpace_cons_of_blank hblank]

theorem reads_of_spellsString {s : String} {text : List Char} (h : SpellsString s text) :
    Reads (readValue dialect size depth) (.str s) text := by
  intro rest _
  obtain ⟨cs, rest', hskip, hread, hrest⟩ := exists_of_spellsString dialect h rest
  refine ⟨rest', ?_, hrest⟩
  rw [hskip, readValue_quote]
  exact hread

/-! ### Containers -/

theorem readItems_skipSpace (item : Reader Json) (fuel : Nat) (done : List Json) (cs : List Char) :
    readItems item fuel done (skipSpace cs) = readItems item fuel done cs := by
  cases fuel with
  | zero => rw [readItems, readItems, skipSpace_skipSpace]
  | succ fuel => rw [readItems, readItems, skipSpace_skipSpace]

theorem readMembers_skipSpace (item : Reader Json) (fuel : Nat) (done : List (String × Json))
    (cs : List Char) : readMembers dialect item fuel done (skipSpace cs) =
      readMembers dialect item fuel done cs := by
  cases fuel with
  | zero => rw [readMembers, readMembers, skipSpace_skipSpace]
  | succ fuel => rw [readMembers, readMembers, skipSpace_skipSpace]

/-- The elements are read one after the other, each with the comma or the bracket behind it. -/
theorem readItems_joinWith {item : Reader Json} {pieces : List ItemPiece} (hne : pieces ≠ [])
    (hitem : ∀ p ∈ pieces, Reads item p.value p.text) {fuel : Nat}
    (hfuel : (joinWith [','] (pieces.map ItemPiece.text)).length < fuel) (done : List Json)
    (rest : List Char) :
    readItems item fuel done (joinWith [','] (pieces.map ItemPiece.text) ++ ']' :: rest) =
      .ok (done.reverse ++ pieces.map ItemPiece.value, rest) := by
  induction pieces generalizing fuel done with
  | nil => exact absurd rfl hne
  | cons p others ih =>
      obtain ⟨fuel, rfl⟩ := Nat.exists_eq_add_of_le' (Nat.one_le_of_lt hfuel)
      have hp := hitem p List.mem_cons_self
      by_cases hothers : others = []
      · subst hothers
        obtain ⟨rest', hread, hrest⟩ := hp (']' :: rest) (ends_cons rfl rest)
        rw [skipSpace_cons_of_ne rfl] at hrest
        show readItems item (fuel + 1) done (p.text ++ ']' :: rest) = _
        rw [readItems]
        simp only [hread, hrest, bind, Except.bind, List.reverse_cons]
        rfl
      · have htexts : others.map ItemPiece.text ≠ [] := by simpa using hothers
        have hfuel' := length_lt_of_joinWith_cons htexts hfuel
        have hrec := ih hothers (fun q hq => hitem q (List.mem_cons_of_mem p hq)) hfuel'
          (p.value :: done)
        obtain ⟨rest', hread, hrest⟩ := hp (',' :: (joinWith [','] (others.map ItemPiece.text) ++
          ']' :: rest)) (ends_cons rfl _)
        rw [skipSpace_cons_of_ne rfl] at hrest
        rw [List.map_cons, joinWith_cons_append htexts, readItems]
        simp only [hread, hrest, bind, Except.bind, hrec, List.reverse_cons, List.append_assoc,
          List.map_cons, List.singleton_append]

/-- The members are read one after the other, each with the comma or the brace behind it. -/
theorem readMembers_joinWith {item : Reader Json} {pieces : List MemberPiece} (hne : pieces ≠ [])
    (hnames : ∀ p ∈ pieces, SpellsString p.name p.nameText)
    (hitem : ∀ p ∈ pieces, Reads item p.value p.valueText) {fuel : Nat}
    (hfuel : (joinWith [','] (pieces.map MemberPiece.text)).length < fuel)
    (done : List (String × Json)) (rest : List Char) :
    readMembers dialect item fuel done (joinWith [','] (pieces.map MemberPiece.text) ++ '}' :: rest) =
      .ok (done.reverse ++ pieces.map MemberPiece.member, rest) := by
  induction pieces generalizing fuel done with
  | nil => exact absurd rfl hne
  | cons p others ih =>
      obtain ⟨fuel, rfl⟩ := Nat.exists_eq_add_of_le' (Nat.one_le_of_lt hfuel)
      have hp := hitem p List.mem_cons_self
      have hname := exists_of_spellsString dialect (hnames p List.mem_cons_self)
      by_cases hothers : others = []
      · subst hothers
        obtain ⟨rest', hread, hrest⟩ := hp ('}' :: rest) (ends_cons rfl rest)
        rw [skipSpace_cons_of_ne rfl] at hrest
        obtain ⟨cs, behind, hskip, hstring, hbehind⟩ := hname (':' :: (p.valueText ++ '}' :: rest))
        rw [skipSpace_cons_of_ne rfl] at hbehind
        have htext : joinWith [','] ([p].map MemberPiece.text) ++ '}' :: rest =
            p.nameText ++ ':' :: (p.valueText ++ '}' :: rest) := List.append_assoc _ _ _
        rw [htext, readMembers]
        simp only [hskip, hstring, hbehind, hread, hrest, bind, Except.bind, List.reverse_cons]
        rfl
      · have htexts : others.map MemberPiece.text ≠ [] := by simpa using hothers
        have hfuel' := length_lt_of_joinWith_cons htexts hfuel
        have hrec := ih hothers (fun q hq => hnames q (List.mem_cons_of_mem p hq))
          (fun q hq => hitem q (List.mem_cons_of_mem p hq)) hfuel' (p.member :: done)
        obtain ⟨rest', hread, hrest⟩ := hp (',' :: (joinWith [','] (others.map MemberPiece.text) ++
          '}' :: rest)) (ends_cons rfl _)
        rw [skipSpace_cons_of_ne rfl] at hrest
        obtain ⟨cs, behind, hskip, hstring, hbehind⟩ := hname (':' :: (p.valueText ++
          ',' :: (joinWith [','] (others.map MemberPiece.text) ++ '}' :: rest)))
        rw [skipSpace_cons_of_ne rfl] at hbehind
        have htext : joinWith [','] ((p :: others).map MemberPiece.text) ++ '}' :: rest =
            p.nameText ++ ':' :: (p.valueText ++
              ',' :: (joinWith [','] (others.map MemberPiece.text) ++ '}' :: rest)) := by
          rw [List.map_cons, joinWith_cons_append htexts]
          exact List.append_assoc _ _ _
        rw [htext, readMembers]
        simp only [hskip, hstring, hbehind, hread, hrest, bind, Except.bind, nameOf]
        show readMembers dialect item fuel (p.member :: done) _ = _
        rw [hrec, List.reverse_cons, List.append_assoc]
        rfl

theorem readValue_bracket (cs : List Char) :
    readValue dialect size depth (']' :: cs) = refuse "Expecting value" (cs.length + 1) := by
  rw [readValue_eq_readScalar (by decide) (by decide) (by decide)]
  rfl

theorem reads_emptyArr {blanks : List Char} (h : ∀ b ∈ blanks, isSpace b = true) :
    Reads (readValue dialect size depth) (.arr []) ('[' :: (blanks ++ [']'])) := by
  apply reads_of_eq rfl
  intro rest _
  have hskip : skipSpace (blanks ++ [']'] ++ rest) = ']' :: rest := by
    rw [List.append_assoc, skipSpace_append_of_blanks h]
    exact skipSpace_cons_of_ne rfl rest
  cases depth with
  | zero =>
      rw [readValue, hskip]
      rfl
  | succ depth =>
      rw [readValue, hskip]
      rfl

theorem reads_emptyObj {blanks : List Char} (h : ∀ b ∈ blanks, isSpace b = true) :
    Reads (readValue dialect size depth) (.obj []) ('{' :: (blanks ++ ['}'])) := by
  apply reads_of_eq rfl
  intro rest _
  have hskip : skipSpace (blanks ++ ['}'] ++ rest) = '}' :: rest := by
    rw [List.append_assoc, skipSpace_append_of_blanks h]
    exact skipSpace_cons_of_ne rfl rest
  cases depth with
  | zero =>
      rw [readValue, hskip]
      rfl
  | succ depth =>
      rw [readValue, hskip]
      rfl

theorem reads_arr {pieces : List ItemPiece} (hne : pieces ≠ [])
    (hitem : ∀ p ∈ pieces, Reads (readValue dialect size depth) p.value p.text)
    (hsize : (joinWith [','] (pieces.map ItemPiece.text)).length ≤ size) :
    Reads (readValue dialect size (depth + 1)) (.arr (pieces.map ItemPiece.value))
      ('[' :: (joinWith [','] (pieces.map ItemPiece.text) ++ [']'])) := by
  apply reads_of_eq rfl
  intro rest _
  have hread := readItems_joinWith hne hitem (Nat.lt_succ_of_le hsize) [] rest
  rw [List.append_assoc, List.singleton_append, readValue]
  split
  · -- No element starts with the closing bracket, since the reader refuses to start there.
    rename_i heq
    rw [← readItems_skipSpace, heq, readItems, skipSpace_cons_of_ne rfl, readValue_bracket] at hread
    cases hread
  · rw [readItems_skipSpace, hread]
    rfl

theorem reads_obj {pieces : List MemberPiece} (hne : pieces ≠ [])
    (hnames : ∀ p ∈ pieces, SpellsString p.name p.nameText)
    (hitem : ∀ p ∈ pieces, Reads (readValue dialect size depth) p.value p.valueText)
    (hsize : (joinWith [','] (pieces.map MemberPiece.text)).length ≤ size) :
    Reads (readValue dialect size (depth + 1)) (.obj (pieces.map MemberPiece.member))
      ('{' :: (joinWith [','] (pieces.map MemberPiece.text) ++ ['}'])) := by
  apply reads_of_eq rfl
  intro rest _
  have hread := @readMembers_joinWith dialect _ _ hne hnames hitem _ (Nat.lt_succ_of_le hsize) [] rest
  rw [List.append_assoc, List.singleton_append, readValue]
  split
  · rename_i heq
    rw [← readMembers_skipSpace, heq, readMembers, skipSpace_cons_of_ne rfl] at hread
    cases hread
  · rw [readMembers_skipSpace, hread]
    rfl

/-- The reader reads every text of a value. -/
theorem reads_of_spells {v : Json} {text : List Char} (h : Spells depth v text)
    (hsize : text.length ≤ size) : Reads (readValue dialect size depth) v text := by
  induction h with
  | null => exact reads_scalar rfl (by decide) fun rest _ => readScalar_null rest
  | yes => exact reads_scalar rfl (by decide) fun rest _ => readScalar_true rest
  | no => exact reads_scalar rfl (by decide) fun rest _ => readScalar_false rest
  | int hfits => exact reads_render hfits
  | str hstring => exact reads_of_spellsString hstring
  | emptyArr hblanks => exact reads_emptyArr hblanks
  | emptyObj hblanks => exact reads_emptyObj hblanks
  | arr hne _ ih =>
      rename_i pieces _
      have hjoined : (joinWith [','] (pieces.map ItemPiece.text)).length ≤ size := by
        rw [List.length_cons, List.length_append] at hsize
        omega
      refine reads_arr hne (fun p hp => ih p hp ?_) hjoined
      exact (length_le_length_joinWith (List.mem_map_of_mem hp)).trans hjoined
  | obj hne hnames _ ih =>
      rename_i pieces _
      have hjoined : (joinWith [','] (pieces.map MemberPiece.text)).length ≤ size := by
        rw [List.length_cons, List.length_append] at hsize
        omega
      refine reads_obj hne hnames (fun p hp => ih p hp ?_) hjoined
      have hpiece : p.text.length ≤ (joinWith [','] (pieces.map MemberPiece.text)).length :=
        length_le_length_joinWith (List.mem_map_of_mem hp)
      rw [MemberPiece.text, List.length_append, List.length_cons] at hpiece
      omega
  | before hblank _ ih =>
      rw [List.length_cons] at hsize
      exact (ih (by omega)).before hblank
  | after hblank _ ih =>
      rw [List.length_append] at hsize
      exact (ih (by omega)).after hblank

end

/-- A text of a value that nests no deeper than the dialect allows is read as that value. -/
theorem readChars_of_spells {dialect : Dialect} {depth : Nat} {v : Json} {text : List Char}
    (h : Spells depth v text) (hdepth : depth ≤ dialect.maxNesting) :
    readChars dialect text = .ok v := by
  have hreads : Reads (readValue dialect text.length dialect.maxNesting) v text :=
    reads_of_spells (h.mono hdepth) (Nat.le_refl _)
  obtain ⟨rest, hread, hrest⟩ := hreads [] ends_nil
  rw [List.append_nil] at hread
  have hend : (skipSpace rest).isEmpty = true := by
    rw [hrest]
    rfl
  unfold readChars
  simp only [hread, bind, Except.bind, hend, if_true]
  rfl

/-- No two values have a text in common. -/
theorem Spells.unique {depth depth' : Nat} {v v' : Json} {text : List Char} (h : Spells depth v text)
    (h' : Spells depth' v' text) : v = v' := by
  have hread : readChars ⟨max depth depth', true⟩ text = .ok v :=
    readChars_of_spells h (Nat.le_max_left _ _)
  have hread' : readChars ⟨max depth depth', true⟩ text = .ok v' :=
    readChars_of_spells h' (Nat.le_max_right _ _)
  rw [hread] at hread'
  exact Except.ok.inj hread'

end Json

end SumTree
