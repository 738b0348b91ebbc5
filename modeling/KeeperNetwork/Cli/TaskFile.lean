import Mathlib.Data.List.DropRight
import Mathlib.Data.List.Forall2
import Mathlib.Data.List.Nodup

/-! The comma-separated task list of the command line, and how quoted cells read back. -/

namespace KeeperNetwork.Cli

abbrev Text := List Char

/-- Whether trimming removes the character: the white space and line ends of JavaScript. -/
def isWhite (ch : Char) : Bool :=
  ch ∈ ['\t', '\n', '\u000b', '\u000c', '\r', ' ', '\u00a0', '\u1680', '\u2028', '\u2029',
    '\u202f', '\u205f', '\u3000', '\ufeff'] ∨ '\u2000' ≤ ch ∧ ch ≤ '\u200a'

def trim (text : Text) : Text := (text.dropWhile isWhite).rdropWhile isWhite

def splitLines (line : Text) : Text → List Text
  | [] => [line]
  | '\n' :: rest => line :: splitLines [] rest
  | '\r' :: '\n' :: rest => line :: splitLines [] rest
  | ch :: rest => splitLines (line ++ [ch]) rest

/-- The loop over the characters of a line, with the cells and the cell read so far. -/
def scanCells (cells : List Text) (cell : Text) : Bool → Text → List Text
  | _, [] => cells ++ [trim cell]
  -- Inside quotes, two quotes stand for one and a single quote ends the quoted part.
  | true, '"' :: '"' :: rest => scanCells cells (cell ++ ['"']) true rest
  | true, '"' :: rest => scanCells cells cell false rest
  | true, ch :: rest => scanCells cells (cell ++ [ch]) true rest
  | false, '"' :: rest => scanCells cells cell true rest
  | false, ',' :: rest => scanCells (cells ++ [trim cell]) [] false rest
  | false, ch :: rest => scanCells cells (cell ++ [ch]) false rest

def splitCsvLine (line : Text) : List Text := scanCells [] [] false line

/-- What a row maps each name to. -/
abbrev Record := Text → Option Text

/-- The record of some entries, of which a later one replaces an earlier one of its name. -/
def fromEntries (entries : List (Text × Text)) : Record := fun key => entries.reverse.lookup key

def readRow (header : List Text) (line : Text) : Except String Record :=
  let cells := splitCsvLine line
  let found := cells.length
  let expected := header.length
  let shown := String.ofList line
  if found ≠ expected then
    .error s!"CSV row has {found} cells but the header has {expected}: {shown}"
  else .ok (fromEntries (header.zip cells))

def csvLines (raw : Text) : List Text :=
  ((splitLines [] raw).map trim).filter fun line => line.length > 0 ∧ line.head? ≠ some '#'

/-- Read a header row and at least one task row. -/
def parseCsv (raw : Text) : Except String (List Record) :=
  match csvLines raw with
  | header :: line :: rest => (line :: rest).mapM (readRow (splitCsvLine header))
  | _ => .error "CSV needs a header row and at least one task row."

section RoundTrip

def escapeCell (cell : Text) : Text :=
  cell.flatMap fun ch => if ch = '"' then ['"', '"'] else [ch]

def quoteCell (cell : Text) : Text := '"' :: (escapeCell cell ++ ['"'])

def quoteLine (cells : List Text) : Text := [','].intercalate (cells.map quoteCell)

/-- A cell that stays on its line and has no white space around it. -/
@[mk_iff]
structure Plain (cell : Text) : Prop where
  unbroken : '\n' ∉ cell
  leading : cell.head?.any isWhite = false
  trailing : cell.getLast?.any isWhite = false

instance : DecidablePred Plain := fun cell => decidable_of_iff' _ (plain_iff cell)

variable {cells : List Text} {cell line rest : Text}

theorem trim_of_ends (leading : cell.head?.any isWhite = false)
    (trailing : cell.getLast?.any isWhite = false) : trim cell = cell := by
  have front : cell.dropWhile isWhite = cell := by
    cases cell with
    | nil => rfl
    | cons ch cell =>
      apply List.dropWhile_cons_of_neg
      simpa using leading
  rw [trim, front, List.rdropWhile_eq_self_iff]
  intro filled
  simpa [List.getLast?_eq_some_getLast filled] using trailing

theorem scanCells_quoted (apart : rest.head? ≠ some '"') (read : Text) :
    scanCells cells read true (escapeCell cell ++ '"' :: rest) =
      scanCells cells (read ++ cell) false rest := by
  -- Induction on the cell; what is read grows by its first character.
  induction cell generalizing read with
  | nil =>
    -- The closing quote is not doubled, since the rest does not open with one.
    cases rest with
    | nil => simp [escapeCell, scanCells]
    | cons ch rest =>
      have other : ch ≠ '"' := fun same => apart (by simp [same])
      simp [escapeCell, scanCells, other]
  | cons ch cell ih =>
    by_cases quote : ch = '"'
    · subst quote
      simpa [escapeCell, scanCells] using ih (read ++ ['"'])
    · simpa [escapeCell, scanCells, quote] using ih (read ++ [ch])

theorem quoteLine_cons (filled : cells ≠ []) :
    quoteLine (cell :: cells) = quoteCell cell ++ ',' :: quoteLine cells := by
  obtain ⟨next, cells, rfl⟩ := List.exists_cons_of_ne_nil filled
  simp [quoteLine, List.intercalate_cons_cons]

theorem scanCells_quoteLine (filled : cells ≠ []) (plain : ∀ cell ∈ cells, Plain cell)
    (read : List Text) : scanCells read [] false (quoteLine cells) = read ++ cells := by
  -- Induction on the cells; each is closed by the end of the line or by a comma.
  induction cells generalizing read with
  | nil => exact absurd rfl filled
  | cons cell cells ih =>
    have whole := trim_of_ends (plain cell (by simp)).leading (plain cell (by simp)).trailing
    by_cases last : cells = []
    · subst last
      have closed := @scanCells_quoted read cell [] (by simp) []
      simp only [quoteLine, quoteCell, List.map_cons, List.map_nil, List.intercalate_singleton,
        scanCells]
      rw [closed]
      simp [scanCells, whole]
    · have later := ih last (fun cell member => plain cell (by simp [member])) (read ++ [cell])
      have closed := @scanCells_quoted read cell (',' :: quoteLine cells) (by simp) []
      simp only [quoteLine_cons last, quoteCell, List.cons_append, List.append_assoc,
        List.nil_append, scanCells]
      rw [closed]
      simp [scanCells, whole, later]

/-- A quoted line stays on its line and stands between its first and its last quote. -/
theorem quoteLine_shape (filled : cells ≠ []) (plain : ∀ cell ∈ cells, Plain cell) :
    ∃ body, '\n' ∉ body ∧ quoteLine cells = '"' :: (body ++ ['"']) := by
  induction cells with
  | nil => exact absurd rfl filled
  | cons cell cells ih =>
    have unbroken : '\n' ∉ escapeCell cell := by
      simp only [escapeCell, List.mem_flatMap, not_exists, not_and]
      intro ch member
      have other : ch ≠ '\n' := fun same => (plain cell (by simp)).unbroken (same ▸ member)
      split <;> simp [other.symm]
    by_cases last : cells = []
    · subst last
      exact ⟨_, unbroken, by simp [quoteLine, quoteCell]⟩
    · obtain ⟨body, within, same⟩ := ih last fun cell member => plain cell (by simp [member])
      exact ⟨escapeCell cell ++ '"' :: ',' :: '"' :: body, by simp [unbroken, within],
        by simp [quoteLine_cons last, same, quoteCell]⟩

/-- What follows a part of a line that closes with a quote is read with it. -/
theorem splitLines_through (unbroken : '\n' ∉ cell) :
    splitLines line (cell ++ '"' :: rest) = splitLines (line ++ cell ++ ['"']) rest := by
  induction cell generalizing line with
  | nil => simp [splitLines]
  | cons ch cell ih =>
    have other : ch ≠ '\n' := fun same => unbroken (by simp [same])
    have later := @ih (line ++ [ch]) fun member => unbroken (by simp [member])
    -- A carriage return is not followed by a line feed here.
    have apart : ∀ text, cell ++ '"' :: rest ≠ '\n' :: text := by
      intro text same
      cases cell with
      | nil => simp at same
      | cons next cell =>
        simp only [List.cons_append, List.cons.injEq] at same
        exact unbroken (by simp [same.1])
    rw [List.cons_append, splitLines]
    · simp [later]
    · intro same
      exact other same
    · intro text _ same
      exact apart text same

/-- A file of quoted lines has those lines. -/
theorem csvLines_joined {lines : List (List Text)} {ending : Text}
    (known : ending ∈ [['\n'], ['\r', '\n']]) (filled : lines ≠ [])
    (plain : ∀ cells ∈ lines, cells ≠ [] ∧ ∀ cell ∈ cells, Plain cell) :
    csvLines (ending.intercalate (lines.map quoteLine)) = lines.map quoteLine := by
  -- Induction on the lines; a line ends where its ending stands.
  induction lines with
  | nil => exact absurd rfl filled
  | cons cells lines ih =>
    obtain ⟨body, unbroken, same⟩ := quoteLine_shape (plain cells (by simp)).1
      (plain cells (by simp)).2
    have through (rest : Text) :
        splitLines [] (quoteLine cells ++ rest) = splitLines (quoteLine cells) rest := by
      simpa [same] using @splitLines_through ('"' :: body) [] rest (by simp [unbroken])
    -- Neither trimming nor the filter touches a line between quotes.
    have quote : isWhite '"' = false := by decide
    have whole : trim (quoteLine cells) = quoteLine cells := by
      rw [same, ← List.cons_append]
      exact trim_of_ends (by simp [quote]) (by rw [List.getLast?_concat]; simp [quote])
    have kept : (quoteLine cells).length > 0 ∧ (quoteLine cells).head? ≠ some '#' := by
      simp [same]
    by_cases last : lines = []
    · subst last
      have single := through []
      rw [List.append_nil] at single
      simp [csvLines, single, splitLines, whole, kept]
    · obtain ⟨next, later, rfl⟩ := List.exists_cons_of_ne_nil last
      have behind := ih last fun cells member => plain cells (by simp [member])
      rw [List.map_cons, csvLines] at behind
      rw [List.map_cons, List.map_cons, List.intercalate_cons_cons, List.append_assoc, csvLines,
        through]
      simp only [List.mem_cons, List.not_mem_nil, or_false] at known
      obtain rfl | rfl := known
      all_goals
        simp only [List.cons_append, List.nil_append, splitLines, List.map_cons, whole]
        rw [List.filter_cons_of_pos (by simpa using kept), behind]

theorem lookup_iff {entries : List (Text × Text)} (distinct : (entries.map Prod.fst).Nodup)
    {key value : Text} : entries.lookup key = some value ↔ (key, value) ∈ entries := by
  induction entries with
  | nil => simp
  | cons entry entries ih =>
    obtain ⟨name, held⟩ := entry
    rw [List.map_cons, List.nodup_cons] at distinct
    by_cases same : key = name
    · subst same
      -- No later entry has this name.
      have absent : (key, value) ∉ entries := fun member =>
        distinct.1 (List.mem_map.mpr ⟨(key, value), member, rfl⟩)
      simp [absent, @eq_comm _ held]
    · have other : (key == name) = false := beq_eq_false_iff_ne.mpr same
      simp [List.lookup_cons, other, same, ih distinct.2]

theorem mapM_ok {read : Text → Except String Record} {record : List Text → Record}
    {rows : List (List Text)} (each : ∀ row ∈ rows, read (quoteLine row) = .ok (record row)) :
    (rows.map quoteLine).mapM read = .ok (rows.map record) := by
  induction rows with
  | nil => rfl
  | cons row rows ih =>
    have later := ih fun row member => each row (by simp [member])
    simp only [List.map_cons, List.mapM_cons, each row (by simp), later]
    rfl

/-- Quoted cells read back, from a line and from the rows of a file with distinct names, whatever
stands in the cells. -/
theorem csv_round_trip :
    (∀ cells : List Text, cells ≠ [] → (∀ cell ∈ cells, Plain cell) →
      splitCsvLine (quoteLine cells) = cells) ∧
    ∀ (header : List Text) (rows : List (List Text)), header ≠ [] → header.Nodup → rows ≠ [] →
      (∀ row ∈ header :: rows, row.length = header.length ∧ ∀ cell ∈ row, Plain cell) →
      ∀ ending ∈ [['\n'], ['\r', '\n']], ∃ records,
        parseCsv (ending.intercalate ((header :: rows).map quoteLine)) = .ok records ∧
        List.Forall₂ (fun row (record : Record) =>
          ∀ key value, record key = some value ↔ (key, value) ∈ header.zip row) rows records := by
  refine ⟨fun cells filled plain => scanCells_quoteLine filled plain [], ?_⟩
  intro header rows filled distinct some_row plain ending known
  have formed (row) (member : row ∈ header :: rows) : row ≠ [] ∧ ∀ cell ∈ row, Plain cell := by
    refine ⟨fun empty => ?_, (plain row member).2⟩
    have short := (plain row member).1
    rw [empty, List.length_nil] at short
    exact filled (List.length_eq_zero_iff.mp short.symm)
  have read (row) (member : row ∈ header :: rows) : splitCsvLine (quoteLine row) = row :=
    scanCells_quoteLine (formed row member).1 (formed row member).2 []
  refine ⟨rows.map fun row => fromEntries (header.zip row), ?_, ?_⟩
  · have each (row) (member : row ∈ rows) :
        readRow header (quoteLine row) = .ok (fromEntries (header.zip row)) := by
      have within := List.mem_cons_of_mem header member
      simp [readRow, read row within, (plain row within).1]
    have lines := csvLines_joined known (by simp) formed
    obtain ⟨first, later, rfl⟩ := List.exists_cons_of_ne_nil some_row
    have whole := read header (by simp)
    rw [parseCsv, lines]
    simp only [List.map_cons, whole]
    exact mapM_ok each
  · rw [List.forall₂_map_right_iff, List.forall₂_same]
    intro row member key value
    have long := (plain row (List.mem_cons_of_mem header member)).1
    rw [fromEntries, lookup_iff, List.mem_reverse]
    rw [List.map_reverse, List.nodup_reverse, List.map_fst_zip long.ge]
    exact distinct

/-- A row with commas, quotes, a number sign and an empty cell reads back. -/
theorem csv_round_trip_row :
    splitCsvLine (quoteLine [['#', ',', '"', ' ', 'x'], []]) = [['#', ',', '"', ' ', 'x'], []] ∧
    ∃ records, parseCsv (['\n'].intercalate
      ([[['a'], ['b']], [['#', ',', '"', ' ', 'x'], []]].map quoteLine)) = .ok records ∧
      List.Forall₂ (fun row (record : Record) =>
        ∀ key value, record key = some value ↔ (key, value) ∈ [['a'], ['b']].zip row)
        [[['#', ',', '"', ' ', 'x'], []]] records := by
  -- Every cell is plain, and each row has two cells.
  refine ⟨csv_round_trip.1 _ (by decide) (by decide), ?_⟩
  exact csv_round_trip.2 [['a'], ['b']] _ (by decide) (by decide) (by decide) (by decide) ['\n']
    (by decide)

end RoundTrip

end KeeperNetwork.Cli
