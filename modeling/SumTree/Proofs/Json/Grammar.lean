import SumTree.Json.Printer
import SumTree.Json.Reader

/-!
# The texts of a value

Which texts stand for a JSON value, said without a reader and without a printer. A value has many
texts: blanks may stand around every part of it, and a character of a string may be written in several
ways. Doubles have no text here, and an integer has its shortest numeral alone.

## Main Definitions

* `Json.SpellsChar`, `Json.SpellsBody`, `Json.SpellsString` — the texts of a character, of the body of
  a string, and of a string.
* `Json.Spells` — the texts of a value that holds at most so many containers inside each other.

## Design Notes

The elements of a container come as *pieces*, each a value with its text, so that the rule for a
container asks something of every piece and joins their texts. Blanks are two rules of their own, which
serve around a whole text, an element, a name and the value of a member alike.
-/

namespace SumTree

namespace Json

/-- Four digits that write a 16-bit unit. -/
structure SpellsUnit (unit : Nat) (digits : List Char) : Prop where
  length : digits.length = 4
  isDigit : ∀ c ∈ digits, Hex.isDigit c = true
  value : Hex.toNat digits = unit

/-- The texts of a character inside a string. -/
inductive SpellsChar : Char → List Char → Prop
  | plain {c : Char} (hcontrol : 32 ≤ c.toNat) (hquote : c ≠ '"') (hslash : c ≠ '\\') :
    SpellsChar c [c]
  | short {c letter : Char} (h : shortEscapes.lookup letter = some c.toNat) :
    SpellsChar c ['\\', letter]
  | unit {c : Char} {digits : List Char} (h : SpellsUnit c.toNat digits) :
    SpellsChar c ('\\' :: 'u' :: digits)
  /-- A character beyond the basic plane is written by two surrogates. -/
  | pair {c : Char} {high low : List Char} (hbeyond : 0x10000 ≤ c.toNat)
    (hhigh : SpellsUnit (0xd800 + (c.toNat - 0x10000) / 0x400) high)
    (hlow : SpellsUnit (0xdc00 + (c.toNat - 0x10000) % 0x400) low) :
    SpellsChar c ('\\' :: 'u' :: (high ++ '\\' :: 'u' :: low))

/-- The texts of some characters, one after the other. -/
inductive SpellsBody : List Char → List Char → Prop
  | nil : SpellsBody [] []
  | cons {c : Char} {cs text rest : List Char} (hchar : SpellsChar c text)
    (hrest : SpellsBody cs rest) : SpellsBody (c :: cs) (text ++ rest)

/-- The texts of a string: its characters in quotes, with blanks around them. -/
inductive SpellsString : String → List Char → Prop
  | quoted {s : String} {body : List Char} (h : SpellsBody s.toList body) :
    SpellsString s ('"' :: (body ++ ['"']))
  | before {s : String} {text : List Char} {b : Char} (hblank : isSpace b = true)
    (h : SpellsString s text) : SpellsString s (b :: text)
  | after {s : String} {text : List Char} {b : Char} (hblank : isSpace b = true)
    (h : SpellsString s text) : SpellsString s (text ++ [b])

/-- An element of an array with its text. -/
structure ItemPiece where
  value : Json
  text : List Char

/-- A member of an object with the texts of its name and of its value. -/
structure MemberPiece where
  name : String
  nameText : List Char
  value : Json
  valueText : List Char

namespace MemberPiece

/-- The member of a piece. -/
def member (p : MemberPiece) : String × Json :=
  (p.name, p.value)

/-- The text of a piece. -/
def text (p : MemberPiece) : List Char :=
  p.nameText ++ ':' :: p.valueText

end MemberPiece

/-- The texts of a value with at most `depth` containers inside each other. An empty container does
not count. -/
inductive Spells : Nat → Json → List Char → Prop
  | null {depth : Nat} : Spells depth .null ['n', 'u', 'l', 'l']
  | yes {depth : Nat} : Spells depth (.bool true) ['t', 'r', 'u', 'e']
  | no {depth : Nat} : Spells depth (.bool false) ['f', 'a', 'l', 's', 'e']
  | int {depth : Nat} {n : Int} (h : Decimal.fits n = true) :
    Spells depth (.int n) (Decimal.render n).toList
  | str {depth : Nat} {s : String} {text : List Char} (h : SpellsString s text) :
    Spells depth (.str s) text
  | emptyArr {depth : Nat} {blanks : List Char} (h : ∀ b ∈ blanks, isSpace b = true) :
    Spells depth (.arr []) ('[' :: (blanks ++ [']']))
  | emptyObj {depth : Nat} {blanks : List Char} (h : ∀ b ∈ blanks, isSpace b = true) :
    Spells depth (.obj []) ('{' :: (blanks ++ ['}']))
  | arr {depth : Nat} {pieces : List ItemPiece} (hne : pieces ≠ [])
    (h : ∀ p ∈ pieces, Spells depth p.value p.text) :
    Spells (depth + 1) (.arr (pieces.map ItemPiece.value))
      ('[' :: (joinWith [','] (pieces.map ItemPiece.text) ++ [']']))
  | obj {depth : Nat} {pieces : List MemberPiece} (hne : pieces ≠ [])
    (hnames : ∀ p ∈ pieces, SpellsString p.name p.nameText)
    (h : ∀ p ∈ pieces, Spells depth p.value p.valueText) :
    Spells (depth + 1) (.obj (pieces.map MemberPiece.member))
      ('{' :: (joinWith [','] (pieces.map MemberPiece.text) ++ ['}']))
  | before {depth : Nat} {v : Json} {text : List Char} {b : Char} (hblank : isSpace b = true)
    (h : Spells depth v text) : Spells depth v (b :: text)
  | after {depth : Nat} {v : Json} {text : List Char} {b : Char} (hblank : isSpace b = true)
    (h : Spells depth v text) : Spells depth v (text ++ [b])

/-! ### Joined texts -/

theorem joinWith_cons {separator text : List Char} {texts : List (List Char)} (h : texts ≠ []) :
    joinWith separator (text :: texts) = text ++ separator ++ joinWith separator texts := by
  obtain ⟨next, rest, rfl⟩ := List.exists_cons_of_ne_nil h
  rfl

theorem joinWith_cons_append {text : List Char} {texts : List (List Char)} (h : texts ≠ [])
    (rest : List Char) : joinWith [','] (text :: texts) ++ rest =
      text ++ ',' :: (joinWith [','] texts ++ rest) := by
  rw [joinWith_cons h, List.append_assoc, List.append_assoc]
  rfl

theorem length_lt_of_joinWith_cons {text : List Char} {texts : List (List Char)} {fuel : Nat}
    (h : texts ≠ []) (hlength : (joinWith [','] (text :: texts)).length < fuel + 1) :
    (joinWith [','] texts).length < fuel := by
  rw [joinWith_cons h, List.length_append, List.length_append, List.length_singleton] at hlength
  omega

/-- Each text is part of what is joined from them. -/
theorem length_le_length_joinWith {separator text : List Char} {texts : List (List Char)}
    (h : text ∈ texts) : text.length ≤ (joinWith separator texts).length := by
  induction texts with
  | nil => cases h
  | cons first rest ih =>
      by_cases hrest : rest = []
      · subst hrest
        rw [List.mem_singleton.mp h]
        exact Nat.le_refl _
      · rw [joinWith_cons hrest, List.length_append, List.length_append]
        rcases List.mem_cons.mp h with rfl | hmem
        · omega
        · have := ih hmem
          omega

/-- There is a separator between each two texts. -/
theorem length_le_length_joinWith_succ (separator : Char) (texts : List (List Char)) :
    texts.length ≤ (joinWith [separator] texts).length + 1 := by
  induction texts with
  | nil => exact Nat.zero_le _
  | cons first rest ih =>
      by_cases hrest : rest = []
      · subst hrest
        exact Nat.le_add_left 1 _
      · rw [joinWith_cons hrest, List.length_append, List.length_append, List.length_cons,
          List.length_singleton]
        omega

/-- A text of an array is at least as long as the array. -/
theorem Spells.length_le {depth : Nat} {items : List Json} {text : List Char}
    (h : Spells depth (.arr items) text) : items.length ≤ text.length := by
  generalize hv : Json.arr items = v at h
  induction h with
  | null => cases hv
  | yes => cases hv
  | no => cases hv
  | int => cases hv
  | str => cases hv
  | emptyObj => cases hv
  | obj => cases hv
  | emptyArr =>
      cases hv
      exact Nat.zero_le _
  | @arr depth pieces =>
      cases hv
      have hjoined := length_le_length_joinWith_succ ',' (pieces.map ItemPiece.text)
      rw [List.length_map] at hjoined ⊢
      rw [List.length_cons, List.length_append]
      omega
  | before _ _ ih =>
      rw [List.length_cons]
      exact Nat.le_trans (ih hv) (Nat.le_succ _)
  | after _ _ ih =>
      rw [List.length_append]
      exact Nat.le_trans (ih hv) (Nat.le_add_right _ _)

/-! ### Depths -/

/-- What may be nested so deep may be nested deeper. -/
theorem Spells.mono {depth depth' : Nat} {v : Json} {text : List Char} (h : Spells depth v text)
    (hle : depth ≤ depth') : Spells depth' v text := by
  induction h generalizing depth' with
  | null => exact .null
  | yes => exact .yes
  | no => exact .no
  | int hfits => exact .int hfits
  | str hstring => exact .str hstring
  | emptyArr hblanks => exact .emptyArr hblanks
  | emptyObj hblanks => exact .emptyObj hblanks
  | arr hne _ ih =>
      obtain ⟨less, rfl⟩ := Nat.exists_eq_add_of_le' (Nat.one_le_of_lt hle)
      exact .arr hne fun p hp => ih p hp (Nat.succ_le_succ_iff.mp hle)
  | obj hne hnames _ ih =>
      obtain ⟨less, rfl⟩ := Nat.exists_eq_add_of_le' (Nat.one_le_of_lt hle)
      exact .obj hne hnames fun p hp => ih p hp (Nat.succ_le_succ_iff.mp hle)
  | before hblank _ ih => exact .before hblank (ih hle)
  | after hblank _ ih => exact .after hblank (ih hle)

end Json

end SumTree
