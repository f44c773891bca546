import SumTree.Entry.Rows
import SumTree.Proofs.Entry.Numerals
import SumTree.Proofs.Text.Blank

/-!
# Entries of rows

A row makes an entry when its username is not blank and each of its balances, without the blanks around
it, consists of ASCII digits (`Row.WellFormed`). Rows make entries when all of them do
(`Entry.ofRows_eq_ok_iff`), and the first one that does not is reported with its place
(`Entry.exists_of_ofRowsFrom_eq_error`). A well-formed row can still hold a balance of too many digits,
and nothing else goes wrong behind the check of its digits.

## Main Definitions

* `Row.name`, `Row.parts` — the username and the balances of a row, without the blanks around them.
* `Row.WellFormed`, `Row.Short` — the rows that make entries, as far as their digits are not too many.
* `Row.entry` — the entry of a well-formed row.
* `Row.fault`, `Row.complaint` — how a row that is not well formed is reported.
-/

namespace SumTree

namespace Row

/-- The username of a row, without the blanks around it. -/
def name (row : Row) : String :=
  Blank.trim (row.cell "username")

/-- The balances of a row between its commas, without the blanks around each of them. -/
def parts (row : Row) : List String :=
  ((row.cell "balances").splitOn ",").map Blank.trim

/-- A username that is not blank, and balances each of which is a non-empty run of ASCII digits. -/
structure WellFormed (row : Row) : Prop where
  name : row.name ≠ ""
  digits : ∀ part ∈ row.parts, part ≠ "" ∧ ∀ c ∈ part.toList, '0' ≤ c ∧ c ≤ '9'

/-- No balance has more digits than may be read. -/
def Short (row : Row) : Prop :=
  ∀ part ∈ row.parts, (∀ c ∈ part.toList, '0' ≤ c ∧ c ≤ '9') →
    part.toList.length ≤ Decimal.maxDigits

/-- The username of a row with the numbers that its balances write in decimal. -/
def entry (row : Row) : Entry :=
  ⟨row.name, row.parts.map fun part =>
    Nat.ofDigits 10 (part.toList.reverse.map fun c => c.toNat - '0'.toNat)⟩

/-- The username or the balances of a row are missing or blank. -/
def Lacks (row : Row) : Prop :=
  row.name = "" ∨ Blank.trim (row.cell "balances") = ""

instance (row : Row) : Decidable row.Lacks :=
  inferInstanceAs (Decidable (_ ∨ _))

/-- What is said of a row that is not well formed, behind its place: what it lacks first, else what its
balances are. -/
def complaint (row : Row) : String :=
  if row.Lacks then ": missing username or balances"
  else ": balances must be non-negative integers, got "
    ++ Quoted.quote (Blank.trim (row.cell "balances"))

/-- The fault by which a row that is not well formed is reported. -/
def fault (source : String) (line : Nat) (row : Row) : EntryFault :=
  if row.Lacks then .missingCell source line
  else .badBalances source line (Blank.trim (row.cell "balances"))

/-- A fault names its source and its line, and says what is wrong. -/
theorem message_fault (source : String) (line : Nat) (row : Row) :
    (row.fault source line).message = source ++ ":" ++ toString line ++ row.complaint := by
  unfold fault complaint
  split
  · rfl
  · exact String.append_assoc

/-! ### Well-formed rows -/

/-- The balances may be trimmed as a whole before they are split. -/
theorem parts_eq (row : Row) :
    row.parts = ((Blank.trim (row.cell "balances")).splitOn ",").map Blank.trim :=
  (@Blank.map_trim_splitOn ',' rfl (row.cell "balances")).symm

/-- The balances are split at the commas among their characters. -/
theorem parts_eq_map (row : Row) : row.parts =
    ((row.cell "balances").toList.splitOn ',').map fun part => Blank.trim (String.ofList part) := by
  have hsplit := splitOn_singleton (row.cell "balances") ','
  exact (congrArg (List.map Blank.trim) hsplit).trans List.map_map

theorem isPlain_iff_digits {part : String} : Decimal.isPlain part = true ↔
    part ≠ "" ∧ ∀ c ∈ part.toList, '0' ≤ c ∧ c ≤ '9' := by
  simp only [Decimal.isPlain_iff, Decimal.isAscii_iff, ne_eq, String.toList_eq_nil_iff]

/-- Blank balances have one part, which is empty. -/
theorem parts_of_blank {row : Row} (h : Blank.trim (row.cell "balances") = "") : row.parts = [""] := by
  have hsplit : "".splitOn "," = [""] := splitOn_singleton "" ','
  rw [parts_eq, h, hsplit]
  rfl

/-- A row is well formed when it lacks nothing and its balances are plain numerals. -/
theorem wellFormed_iff {row : Row} :
    row.WellFormed ↔ ¬ row.Lacks ∧ ∀ part ∈ row.parts, Decimal.isPlain part = true := by
  constructor
  · rintro ⟨hname, hdigits⟩
    refine ⟨?_, fun part hpart => isPlain_iff_digits.mpr (hdigits part hpart)⟩
    rintro (hblank | hblank)
    · exact hname hblank
    · have hempty := hdigits "" (by rw [parts_of_blank hblank]; exact List.mem_singleton_self "")
      exact hempty.1 rfl
  · rintro ⟨hlacks, hplain⟩
    exact ⟨fun hname => hlacks (.inl hname), fun part hpart => isPlain_iff_digits.mp (hplain part hpart)⟩

/-- The entry of a row has the numbers that the digits of its balances write. -/
theorem entry_eq (row : Row) :
    row.entry = ⟨row.name, row.parts.map fun part => Decimal.ofDigits part.toList⟩ := by
  rw [entry]
  congr 1
  exact List.map_congr_left fun part _ => (Decimal.ofDigits_eq part.toList).symm

end Row

namespace Entry

variable {source : String}

/-! ### One row -/

/-- What becomes of a row: what it lacks is noticed first, then what its balances are, and then their
numbers of digits. -/
theorem ofRow_eq (source : String) (line : Nat) (row : Row) : ofRow source line row =
    if row.Lacks then .error (.run (.entries (.missingCell source line)))
    else if ∀ part ∈ row.parts, Decimal.isPlain part = true then
      (ofNumerals row.name row.parts).mapError .value
    else .error (.run (.entries (.badBalances source line (Blank.trim (row.cell "balances"))))) := by
  have hlacks : ((Blank.trim (row.cell "username")).isEmpty ||
      (Blank.trim (row.cell "balances")).isEmpty) = decide row.Lacks := by
    rw [Bool.eq_iff_iff, decide_eq_true_eq, Bool.or_eq_true, String.isEmpty_iff, String.isEmpty_iff]
    exact Iff.rfl
  have hplain : (row.parts.all Decimal.isPlain) =
      decide (∀ part ∈ row.parts, Decimal.isPlain part = true) := by
    rw [Bool.eq_iff_iff]
    simp only [List.all_eq_true, decide_eq_true_eq]
  unfold ofRow
  simp only [hlacks, ← Row.parts_eq, hplain, decide_eq_true_eq, Bool.not_eq_true',
    decide_eq_false_iff_not, ite_not]
  rfl

/-- A row makes an entry when it is well formed and its balances are short, wherever it stands. -/
theorem ofRow_eq_ok_iff {line : Nat} {row : Row} {e : Entry} :
    ofRow source line row = .ok e ↔ row.WellFormed ∧ row.Short ∧ e = row.entry := by
  rw [ofRow_eq, Row.wellFormed_iff, Row.entry_eq]
  by_cases hlacks : row.Lacks
  · simp [hlacks]
  · by_cases hplain : ∀ part ∈ row.parts, Decimal.isPlain part = true
    · have hshort : row.Short ↔
          ∀ part ∈ row.parts, part.toList.length ≤ Decimal.maxDigits :=
        forall₂_congr fun part hpart =>
          ⟨fun h => h (Row.isPlain_iff_digits.mp (hplain part hpart)).2, fun h _ => h⟩
      rw [if_neg hlacks, if_pos hplain, mapError_eq_ok_iff, ofNumerals_eq_ok_iff hplain, hshort]
      exact ⟨fun h => ⟨⟨hlacks, hplain⟩, h⟩, fun h => h.2⟩
    · simp [hlacks, hplain]

/-- What is wrong with a row that makes no entry. -/
theorem ofRow_eq_error {line : Nat} {row : Row} {failure : Failure}
    (h : ofRow source line row = .error failure) :
    (¬ row.WellFormed ∧ failure = .run (.entries (row.fault source line))) ∨
      row.WellFormed ∧ ¬ row.Short ∧ ∃ digits, failure = .value (.tooLongToRead digits) := by
  have hnot : ¬ (row.WellFormed ∧ row.Short) := by
    intro hrow
    rw [ofRow_eq_ok_iff.mpr ⟨hrow.1, hrow.2, rfl⟩] at h
    cases h
  rw [ofRow_eq] at h
  by_cases hlacks : row.Lacks
  · rw [if_pos hlacks] at h
    cases h
    exact .inl ⟨fun hrow => (Row.wellFormed_iff.mp hrow).1 hlacks, by rw [Row.fault, if_pos hlacks]⟩
  · rw [if_neg hlacks] at h
    by_cases hplain : ∀ part ∈ row.parts, Decimal.isPlain part = true
    · have hrow := Row.wellFormed_iff.mpr ⟨hlacks, hplain⟩
      refine .inr ⟨hrow, fun hshort => hnot ⟨hrow, hshort⟩, ?_⟩
      rw [if_pos hplain] at h
      cases hread : ofNumerals row.name row.parts with
      | ok e =>
          rw [hread] at h
          cases h
      | error fault =>
          rw [hread] at h
          cases h
          obtain ⟨part, -, -, rfl⟩ := fault_of_ofNumerals hplain hread
          exact ⟨_, rfl⟩
    · rw [if_neg hplain] at h
      cases h
      exact .inl ⟨fun hrow => hplain (Row.wellFormed_iff.mp hrow).2, by rw [Row.fault, if_neg hlacks]⟩

/-! ### Rows below a header -/

/-- Rows make their entries when all of them are well formed and short. -/
theorem ofRowsFrom_eq_ok_iff {line : Nat} {done : List Entry} {rows : List Row}
    {entries : List Entry} : ofRowsFrom source line done rows = .ok entries ↔
      (∀ row ∈ rows, row.WellFormed ∧ row.Short) ∧ entries = done.reverse ++ rows.map Row.entry := by
  induction rows generalizing line done with
  | nil => simp [ofRowsFrom, eq_comm]
  | cons row rest ih =>
      rw [ofRowsFrom, List.forall_mem_cons]
      cases hrow : ofRow source line row with
      | ok e =>
          obtain ⟨hwell, hshort, rfl⟩ := ofRow_eq_ok_iff.mp hrow
          simp only [ih, hwell, hshort, and_self, true_and, List.reverse_cons, List.append_assoc,
            List.singleton_append, List.map_cons]
      | error failure =>
          have hnot : ¬ (row.WellFormed ∧ row.Short) := by
            intro h
            rw [ofRow_eq_ok_iff.mpr ⟨h.1, h.2, rfl⟩] at hrow
            cases hrow
          simp [hnot]

/-- The failure of rows is that of the first row that makes no entry, on its own line. -/
theorem exists_of_ofRowsFrom_eq_error {line : Nat} {done : List Entry} {rows : List Row}
    {failure : Failure} (h : ofRowsFrom source line done rows = .error failure) :
    ∃ front row rest, rows = front ++ row :: rest ∧ (∀ r ∈ front, r.WellFormed ∧ r.Short) ∧
      ofRow source (front.length + line) row = .error failure := by
  induction rows generalizing line done with
  | nil => cases h
  | cons row rest ih =>
      rw [ofRowsFrom] at h
      cases hrow : ofRow source line row with
      | error found =>
          rw [hrow] at h
          cases h
          refine ⟨[], row, rest, rfl, fun r hr => absurd hr List.not_mem_nil, ?_⟩
          rw [List.length_nil, Nat.zero_add]
          exact hrow
      | ok e =>
          rw [hrow] at h
          obtain ⟨hwell, hshort, -⟩ := ofRow_eq_ok_iff.mp hrow
          obtain ⟨front, bad, others, rfl, hfront, hbad⟩ := ih h
          refine ⟨row :: front, bad, others, rfl, List.forall_mem_cons.mpr ⟨⟨hwell, hshort⟩, hfront⟩, ?_⟩
          rw [List.length_cons, Nat.add_assoc, Nat.add_comm 1 line]
          exact hbad

theorem ofRows_eq_ok_iff {rows : List Row} {entries : List Entry} :
    ofRows source rows = .ok entries ↔
      (∀ row ∈ rows, row.WellFormed ∧ row.Short) ∧ entries = rows.map Row.entry :=
  ofRowsFrom_eq_ok_iff

/-- The entries of rows without balances of too many digits: there are some exactly when every row has a
username that is not blank and balances in ASCII digits, one for each row in order. Otherwise the first
row that is not so is reported with its source and its place, the header counting as the first; and what
an entry itself refuses is never met. -/
theorem entries_of_rows (source : String) {rows : List Row} (hshort : ∀ row ∈ rows, row.Short) :
    ((∃ entries, ofRows source rows = .ok entries) ↔ ∀ row ∈ rows, row.WellFormed) ∧
      (∀ entries, ofRows source rows = .ok entries → entries = rows.map Row.entry) ∧
      (∀ failure, ofRows source rows = .error failure → ∃ front row rest,
        rows = front ++ row :: rest ∧ (∀ r ∈ front, r.WellFormed) ∧ ¬ row.WellFormed ∧
          failure.kind = "EntryValidationError" ∧
          failure.text = source ++ ":" ++ toString (front.length + 2) ++ row.complaint) ∧
      ∀ fault, ofRows source rows ≠ .error (.value fault) := by
  have hrefused : ∀ failure, ofRows source rows = .error failure → ∃ front row rest,
      rows = front ++ row :: rest ∧ (∀ r ∈ front, r.WellFormed) ∧ ¬ row.WellFormed ∧
        failure = .run (.entries (row.fault source (front.length + 2))) := by
    intro failure h
    obtain ⟨front, row, rest, rfl, hfront, hrow⟩ := exists_of_ofRowsFrom_eq_error h
    refine ⟨front, row, rest, rfl, fun r hr => (hfront r hr).1, ?_⟩
    rcases ofRow_eq_error hrow with hbad | ⟨-, hlong, -⟩
    · exact hbad
    · exact absurd (hshort row (List.mem_append_right front List.mem_cons_self)) hlong
  refine ⟨⟨?_, ?_⟩, ?_, ?_, ?_⟩
  · rintro ⟨entries, h⟩ row hrow
    exact ((ofRows_eq_ok_iff.mp h).1 row hrow).1
  · intro hwell
    exact ⟨_, ofRows_eq_ok_iff.mpr ⟨fun row hrow => ⟨hwell row hrow, hshort row hrow⟩, rfl⟩⟩
  · intro entries h
    exact (ofRows_eq_ok_iff.mp h).2
  · intro failure h
    obtain ⟨front, row, rest, hrows, hfront, hrow, rfl⟩ := hrefused failure h
    exact ⟨front, row, rest, hrows, hfront, hrow, rfl, Row.message_fault source _ row⟩
  · intro fault h
    obtain ⟨_, _, _, _, _, _, hfault⟩ := hrefused _ h
    cases hfault

end Entry

namespace Sample

/-- A row with blanks around its username and its balances, and one that lacks a username. -/
def rows : List Row :=
  [[("username", some "\u00a0a b\u3000"), ("balances", some " 007 ,\u20031")],
    [("balances", some "1,,x"), ("username", none)]]

theorem short_rows : ∀ row ∈ rows, row.Short := by
  intro row hrow
  have hparts : row.parts = ["007", "1"] ∨ row.parts = ["1", "", "x"] := by
    simp only [rows, List.mem_cons, List.not_mem_nil, or_false] at hrow
    rcases hrow with rfl | rfl
    · rw [Row.parts_eq_map]
      decide
    · rw [Row.parts_eq_map]
      decide
  have hlength : ∀ part ∈ row.parts, part.toList.length ≤ Decimal.maxDigits := by
    rcases hparts with h | h <;> rw [h] <;> decide
  exact fun part hpart _ => hlength part hpart

theorem wellFormed_padded :
    Row.WellFormed [("username", some "\u00a0a b\u3000"), ("balances", some " 007 ,\u20031")] := by
  refine Row.wellFormed_iff.mpr ⟨by decide, ?_⟩
  rw [Row.parts_eq_map]
  decide

end Sample

theorem Entry.entries_of_rows_padded : ∃ failure,
    ofRows "accounts" Sample.rows = .error failure ∧
      failure.text = "accounts:3: missing username or balances" := by
  obtain ⟨hentries, -, hfailures, -⟩ := entries_of_rows "accounts" Sample.short_rows
  cases h : ofRows "accounts" Sample.rows with
  | ok entries =>
      have hwell := hentries.mp ⟨entries, h⟩ _ (List.mem_cons_of_mem _ List.mem_cons_self)
      exact absurd rfl hwell.name
  | error failure =>
      obtain ⟨front, row, rest, hrows, hfront, hrow, -, htext⟩ := hfailures failure h
      refine ⟨failure, rfl, ?_⟩
      -- The first row is well formed, so it is the second one that is reported.
      match front with
      | [] =>
          cases hrows
          exact absurd Sample.wellFormed_padded hrow
      | [first] =>
          cases hrows
          exact htext
      | first :: second :: others => simp [Sample.rows] at hrows

end SumTree
