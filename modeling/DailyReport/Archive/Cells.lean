import DailyReport.Lib.Json
import DailyReport.Lib.Lowercase
import DailyReport.TextParser.Archive

/-!
# The cells of an archived table row

Two writers put the cells of a row into one line, and one reader takes them out again.  The reader
drops a backslash and takes the character behind it as it is.  The writer of CSV rows escapes the
backslashes of a cell; the writer of Office rows escapes its pipes only.

* `cells_tableLine` : a row is read cell by cell;
* `survives_iff` : **the cells of a row survive exactly when its writer is that of CSV rows or they
  have no backslash**.
-/

namespace DailyReport.Archive

open Lib TextParser

/-! ### Reading a row -/

/-- Where the reader of a row stands. -/
structure CellScan where
  values : List Text
  current : Text
  escaped : Bool

def CellScan.start : CellScan := ⟨[], [], false⟩

/-- The turn of one character. -/
def cellTurn (s : CellScan) (c : Char) : CellScan :=
  if s.escaped then { s with current := s.current ++ [c], escaped := false }
  else if c = '\\' then { s with escaped := true }
  else if c = '|' then { s with values := s.values ++ [trim s.current], current := [] }
  else { s with current := s.current ++ [c] }

/-- The cells between the outer pipes. -/
def innerCells (text : Text) : List Text :=
  let s := text.foldl cellTurn .start
  s.values ++ [trim s.current]

def cells (text : Text) : List Text := innerCells (trimMatches '|' (trim text))

/-! ### Writing a row -/

/-- A line break becomes a space. -/
def spaceBreaks (t : Text) : Text := t.map fun c => if c = '\r' ∨ c = '\n' then ' ' else c

def escapeMarkdownCell (value : Text) : Text :=
  trim (replaceWith '|' (lit "\\|") (spaceBreaks value))

inductive RowWriter
  | csv
  | office
  deriving DecidableEq

def RowWriter.escape : RowWriter → Text → Text
  | .csv => escapeArchiveCell
  | .office => escapeMarkdownCell

/-- The row of a table as it is archived. -/
def RowWriter.row (w : RowWriter) (values : List Text) : Text := tableLine (values.map w.escape)

/-- A cell with its line breaks replaced, and trimmed. -/
def RowWriter.shown : RowWriter → Text → Text
  | .csv, v => trim (replaceWith '\n' (lit "<br>") (replaceWith '\r' [] v))
  | .office, v => trim (spaceBreaks v)

/-! ### The key of a row -/

section

variable [UnicodeCase]

/-- The header of a column that names its rows. -/
def isKeyHeader (v : Text) : Bool :=
  let v := toLowercase v
  decide (v = lit "id") || (lit "编号").isSuffixOf v || (lit "编码").isSuffixOf v ||
    (lit "单号").isSuffixOf v

/-- The columns of the key: those that are configured, or the first one that names its rows. -/
def keyColumns (configured : Option (List Text)) (header : List Text) : List Text :=
  configured.getD ((header.filter isKeyHeader).take 1)

end

/-- The cells of the key, if none of them is missing or empty. -/
def keyValues (columns header row : List Text) : Option (List Text) :=
  columns.mapM fun column => ((header.idxOf? column).bind fun i => row[i]?).filter (· ≠ [])

/-- The text whose digest is the key. -/
def rowKeyText (label : Text) (values : List Text) : Text :=
  Json.print (.arr [.str (lit "row-key"), .str label,
    .str (Json.print (.arr (values.map .str)))])

/-- Different cells have different keys. -/
theorem rowKeyText_injective {label : Text} {values values' : List Text}
    (h : rowKeyText label values = rowKeyText label values') : values = values' := by
  have houter := Json.print_injective h
  simp only [Json.arr.injEq, List.cons.injEq, Json.str.injEq, true_and, and_true] at houter
  have hinner := Json.print_injective houter
  rw [Json.arr.injEq] at hinner
  exact List.map_injective_iff.2 (fun _ _ => Json.str.inj) hinner

/-! ### Cell by cell -/

/-- A reader that has read other cells before. -/
def CellScan.behind (values : List Text) (s : CellScan) : CellScan :=
  { s with values := values ++ s.values }

theorem cellTurn_behind (values : List Text) (s : CellScan) (c : Char) :
    cellTurn (s.behind values) c = (cellTurn s c).behind values := by
  have hescaped : (s.behind values).escaped = s.escaped := rfl
  unfold cellTurn
  rw [hescaped]
  split_ifs <;> simp [CellScan.behind]

theorem foldl_cellTurn_behind (values : List Text) (s : CellScan) (t : Text) :
    t.foldl cellTurn (s.behind values) = (t.foldl cellTurn s).behind values := by
  induction t generalizing s with
  | nil => rfl
  | cons c t ih => rw [List.foldl_cons, cellTurn_behind, ih, List.foldl_cons]

/-- The reader does not stand behind a backslash. -/
def Closed (t : Text) : Prop := (t.foldl cellTurn .start).escaped = false

/-- **A row is read cell by cell.** -/
theorem innerCells_join {pieces : List Text} (hne : pieces ≠ []) (h : ∀ t ∈ pieces, Closed t) :
    innerCells (joinWith ['|'] pieces) = pieces.flatMap innerCells := by
  induction pieces with
  | nil => exact absurd rfl hne
  | cons t pieces ih =>
    cases pieces with
    | nil => simp
    | cons u pieces =>
      have hnext := ih (by simp) fun v hv => h v (List.mem_cons_of_mem _ hv)
      rw [List.flatMap_cons, ← hnext, joinWith_cons _ _ (by simp)]
      have hclosed : (t.foldl cellTurn .start).escaped = false := h t List.mem_cons_self
      have hpipe : (t ++ ['|']).foldl cellTurn .start = CellScan.start.behind (innerCells t) := by
        rw [List.foldl_append, List.foldl_cons, List.foldl_nil, cellTurn, hclosed, innerCells]
        simp [CellScan.behind, CellScan.start]
      have hlater : innerCells (t ++ ['|'] ++ joinWith ['|'] (u :: pieces)) =
          innerCells t ++ innerCells (joinWith ['|'] (u :: pieces)) := by
        rw [innerCells, List.foldl_append, hpipe, foldl_cellTurn_behind]
        simp only [CellScan.behind, List.append_assoc]
        rfl
      exact hlater

/-! ### The outer pipes -/

/-- The spaces around a cell. -/
def padded (t : Text) : Text := ' ' :: t ++ [' ']

/-- The space behind a cell ends what a backslash has begun. -/
theorem closed_padded (t : Text) : Closed (padded t) := by
  rw [Closed, padded, List.foldl_append, List.foldl_cons, List.foldl_nil]
  generalize List.foldl cellTurn .start (' ' :: t) = s
  unfold cellTurn
  rcases s with ⟨values, current, escaped⟩
  cases escaped <;> rfl

theorem trim_padded (t : Text) : trim (padded t) = trim t := by
  have hspace : isWhitespace ' ' = true := by decide
  have hstart : trimStart (padded t) = trimStart (t ++ [' ']) := by
    rw [trimStart, padded, List.cons_append, List.dropWhile_cons, hspace]
    rfl
  rw [trim, hstart, trim]
  unfold trimStart trimEnd
  by_cases hall : ∀ c ∈ t, isWhitespace c = true
  · have hnil : t.dropWhile isWhitespace = [] := List.dropWhile_eq_nil_iff.2 hall
    have hnil' : (t ++ [' ']).dropWhile isWhitespace = [] := by
      rw [List.dropWhile_eq_nil_iff]
      intro c hc
      rcases List.mem_append.1 hc with hc | hc
      · exact hall c hc
      · rw [List.mem_singleton.1 hc]
        exact hspace
    rw [hnil, hnil']
  · have hne : (t.dropWhile isWhitespace).isEmpty = false := by
      rw [← Bool.not_eq_true, List.isEmpty_iff, List.dropWhile_eq_nil_iff]
      exact hall
    rw [List.dropWhile_append, hne, if_neg (by simp), List.rdropWhile_concat, if_pos hspace]

/-- The inside of a row: the padded cells between pipes. -/
theorem joinWith_padded {escaped : List Text} (hne : escaped ≠ []) :
    ' ' :: joinWith [' ', '|', ' '] escaped ++ [' '] = joinWith ['|'] (escaped.map padded) := by
  induction escaped with
  | nil => exact absurd rfl hne
  | cons t escaped ih =>
    cases escaped with
    | nil => rw [joinWith_singleton, List.map_singleton, joinWith_singleton, padded]
    | cons u escaped =>
      have hnext := ih (List.cons_ne_nil u escaped)
      rw [List.map_cons, joinWith_cons _ _ (List.cons_ne_nil u escaped),
        joinWith_cons _ (padded t) (by simp), ← hnext]
      simp [padded]

theorem tableLine_eq {escaped : List Text} (hne : escaped ≠ []) :
    tableLine escaped = '|' :: joinWith ['|'] (escaped.map padded) ++ ['|'] := by
  have hopen : lit "| " = ['|', ' '] := by rw [lit_eq]; rfl
  have hbetween : lit " | " = [' ', '|', ' '] := by rw [lit_eq]; rfl
  have hclose : lit " |" = [' ', '|'] := by rw [lit_eq]; rfl
  rw [tableLine, hopen, hbetween, hclose, ← joinWith_padded hne]
  simp

/-- **The reader of a row finds the cells between its outer pipes.** -/
theorem cells_tableLine {escaped : List Text} (hne : escaped ≠ []) :
    cells (tableLine escaped) = escaped.flatMap fun t => innerCells (padded t) := by
  have hpipe : isWhitespace '|' = false := by decide
  have htrim : trim (tableLine escaped) = tableLine escaped := by
    rw [tableLine_eq hne]
    exact trim_eq_self rfl List.getLast?_concat hpipe hpipe
  -- next to the outer pipes are spaces
  have hmatches : trimMatches '|' (tableLine escaped) = joinWith ['|'] (escaped.map padded) := by
    rw [tableLine_eq hne, ← joinWith_padded hne]
    generalize joinWith [' ', '|', ' '] escaped = middle
    have hdrop : ('|' :: (' ' :: middle ++ [' ']) ++ ['|']).dropWhile (· == '|') =
        ' ' :: middle ++ [' '] ++ ['|'] := rfl
    rw [trimMatches, hdrop, List.rdropWhile_concat, if_pos (by decide), List.rdropWhile_concat,
      if_neg (by decide)]
  rw [cells, htrim, hmatches, innerCells_join (by simpa using hne), List.flatMap_map]
  intro t ht
  obtain ⟨u, -, rfl⟩ := List.mem_map.1 ht
  exact closed_padded u

/-! ### Escaped cells -/

/-- The characters that are written for one of a CSV cell. -/
def escapeChar (c : Char) : Text :=
  if c = '\\' then ['\\', '\\'] else if c = '|' then ['\\', '|']
  else if c = '\r' then [] else if c = '\n' then ['<', 'b', 'r', '>'] else [c]

/-- The characters that are read for one of a CSV cell. -/
def breakChar (c : Char) : Text :=
  if c = '\r' then [] else if c = '\n' then ['<', 'b', 'r', '>'] else [c]

theorem replaceWith_append (old : Char) (new s t : Text) :
    replaceWith old new (s ++ t) = replaceWith old new s ++ replaceWith old new t :=
  List.flatMap_append

theorem escapeArchiveCell_eq (v : Text) : escapeArchiveCell v = v.flatMap escapeChar := by
  have hbreak : lit "<br>" = ['<', 'b', 'r', '>'] := by rw [lit_eq]; rfl
  have hpipe : lit "\\|" = ['\\', '|'] := by rw [lit_eq]; rfl
  have hslash : lit "\\\\" = ['\\', '\\'] := by rw [lit_eq]; rfl
  unfold escapeArchiveCell
  rw [hbreak, hpipe, hslash]
  induction v with
  | nil => rfl
  | cons c v ih =>
    have hcons (old : Char) (new t : Text) : replaceWith old new (c :: t) =
        (if c = old then new else [c]) ++ replaceWith old new t := List.flatMap_cons
    rw [hcons, replaceWith_append, replaceWith_append, replaceWith_append, ih, List.flatMap_cons]
    congr 1
    unfold escapeChar
    split_ifs <;> simp_all [replaceWith]

theorem replaceWith_breaks (v : Text) :
    replaceWith '\n' (lit "<br>") (replaceWith '\r' [] v) = v.flatMap breakChar := by
  have hbreak : lit "<br>" = ['<', 'b', 'r', '>'] := by rw [lit_eq]; rfl
  rw [hbreak]
  induction v with
  | nil => rfl
  | cons c v ih =>
    have hcons (old : Char) (new t : Text) : replaceWith old new (c :: t) =
        (if c = old then new else [c]) ++ replaceWith old new t := List.flatMap_cons
    rw [hcons, replaceWith_append, ih, List.flatMap_cons]
    congr 1
    unfold breakChar
    split_ifs <;> simp_all [replaceWith]

/-- An escaped cell is read without a trace of its escapes. -/
def ReadsAs (escaped value : Text) : Prop :=
  ∀ values current, escaped.foldl cellTurn ⟨values, current, false⟩ =
    ⟨values, current ++ value, false⟩

theorem ReadsAs.flatMap {write read : Char → Text} {v : Text}
    (h : ∀ c ∈ v, ReadsAs (write c) (read c)) : ReadsAs (v.flatMap write) (v.flatMap read) := by
  induction v with
  | nil => intro values current; simp
  | cons c v ih =>
    intro values current
    rw [List.flatMap_cons, List.flatMap_cons, List.foldl_append, h c List.mem_cons_self,
      ih (fun d hd => h d (List.mem_cons_of_mem _ hd)), List.append_assoc]

theorem ReadsAs.innerCells {escaped value : Text} (h : ReadsAs escaped value) :
    innerCells (padded escaped) = [trim value] := by
  have hspace : cellTurn .start ' ' = ⟨[], [' '], false⟩ := rfl
  have hread : (padded escaped).foldl cellTurn .start = ⟨[], padded value, false⟩ := by
    rw [padded, List.cons_append, List.foldl_cons, hspace, List.foldl_append, h]
    rfl
  rw [Archive.innerCells, hread, trim_padded]
  rfl

theorem readsAs_escapeChar (c : Char) : ReadsAs (escapeChar c) (breakChar c) := by
  intro values current
  unfold escapeChar breakChar
  split_ifs with hslash hpipe hreturn hnewline
  all_goals simp_all [cellTurn]

/-- **A cell of a CSV row is read as it was.** -/
theorem innerCells_csv (v : Text) :
    innerCells (padded (RowWriter.csv.escape v)) = [RowWriter.csv.shown v] := by
  have hreads : ReadsAs (v.flatMap escapeChar) (v.flatMap breakChar) :=
    .flatMap fun c _ => readsAs_escapeChar c
  rw [RowWriter.escape, escapeArchiveCell_eq, hreads.innerCells, RowWriter.shown,
    replaceWith_breaks]

/-! ### Cells of Office rows -/

/-- The characters that are written for one of an Office cell. -/
def pipeChar (c : Char) : Text := if c = '|' then ['\\', '|'] else [c]

/-- Escaping pipes leaves the white space at the ends. -/
theorem trim_pipes (t : Text) : trim (t.flatMap pipeChar) = (trim t).flatMap pipeChar := by
  have hsolid {c : Char} (hc : isWhitespace c = false) :
      ∃ d rest front e, pipeChar c = d :: rest ∧ pipeChar c = front ++ [e] ∧
        isWhitespace d = false ∧ isWhitespace e = false := by
    unfold pipeChar
    split_ifs with hpipe
    · exact ⟨'\\', ['|'], ['\\'], '|', rfl, rfl, by decide, by decide⟩
    · exact ⟨c, [], [], c, rfl, rfl, hc, hc⟩
  have hblank {c : Char} (hc : isWhitespace c = true) : pipeChar c = [c] := by
    refine if_neg fun hpipe => ?_
    rw [hpipe] at hc
    exact absurd hc (by decide)
  have hstart : ∀ t : Text, trimStart (t.flatMap pipeChar) = (trimStart t).flatMap pipeChar := by
    intro t
    induction t with
    | nil => rfl
    | cons c t ih =>
      unfold trimStart at ih ⊢
      rw [List.flatMap_cons]
      by_cases hc : isWhitespace c = true
      · rw [hblank hc, List.singleton_append, List.dropWhile_cons_of_pos hc,
          List.dropWhile_cons_of_pos hc, ih]
      · obtain ⟨d, rest, -, -, hpipe, -, hd, -⟩ := hsolid (by simpa using hc)
        rw [List.dropWhile_cons_of_neg hc, List.flatMap_cons, hpipe, List.cons_append,
          List.dropWhile_cons_of_neg (by simp [hd])]
  have hend : ∀ t : Text, trimEnd (t.flatMap pipeChar) = (trimEnd t).flatMap pipeChar := by
    intro t
    induction t using List.reverseRecOn with
    | nil => rfl
    | append_singleton t c ih =>
      unfold trimEnd at ih ⊢
      rw [List.flatMap_append, List.flatMap_singleton, List.rdropWhile_concat]
      by_cases hc : isWhitespace c = true
      · rw [hblank hc, List.rdropWhile_concat, if_pos hc, if_pos hc, ih]
      · obtain ⟨-, -, front, e, -, hpipe, -, he⟩ := hsolid (by simpa using hc)
        rw [hpipe, ← List.append_assoc, List.rdropWhile_concat, if_neg (by simp [he]), if_neg hc,
          List.flatMap_append, List.flatMap_singleton, hpipe, List.append_assoc]
  rw [trim, hstart, hend, trim]

theorem escapeMarkdownCell_eq (v : Text) :
    escapeMarkdownCell v = (RowWriter.office.shown v).flatMap pipeChar := by
  have hpipe : lit "\\|" = ['\\', '|'] := by rw [lit_eq]; rfl
  rw [escapeMarkdownCell, hpipe]
  exact trim_pipes _

/-- Without backslashes an Office cell is read as it was. -/
theorem readsAs_pipes {t : Text} (h : '\\' ∉ t) : ReadsAs (t.flatMap pipeChar) t := by
  have hreads : ReadsAs (t.flatMap pipeChar) (t.flatMap fun c => [c]) := by
    refine .flatMap fun c hc values current => ?_
    have hslash : c ≠ '\\' := fun heq => h (heq ▸ hc)
    unfold pipeChar
    split_ifs with hpipe
    · subst hpipe
      rfl
    · simp [cellTurn, hslash, hpipe]
  simpa using hreads

theorem length_seenle (s : CellScan) (t : Text) :
    s.values.length ≤ (t.foldl cellTurn s).values.length := by
  induction t generalizing s with
  | nil => exact le_rfl
  | cons c t ih =>
    refine Nat.le_trans ?_ (ih (cellTurn s c))
    unfold cellTurn
    split_ifs <;> simp

/-- What is read of the rest of an Office cell: another cell begins, or no more characters are read
than have been written for the rest. -/
theorem read_rest (t seen : Text) (values : List Text) (escaped : Bool) :
    values.length <
        ((t.flatMap pipeChar ++ [' ']).foldl cellTurn ⟨values, seen, escaped⟩).values.length ∨
      ∃ read : Text, read.length ≤ t.length ∧
        (t.flatMap pipeChar ++ [' ']).foldl cellTurn ⟨values, seen, escaped⟩ =
          ⟨values, seen ++ read ++ [' '], false⟩ := by
  induction t generalizing seen escaped with
  | nil => cases escaped <;> exact Or.inr ⟨[], le_rfl, by simp [cellTurn]⟩
  | cons c t ih =>
    have hmore {read : Text} {d : Char} (hread : read.length ≤ t.length) :
        (d :: read).length ≤ (c :: t).length := by simpa using hread
    rw [List.flatMap_cons, List.append_assoc, List.foldl_append]
    by_cases hpipe : c = '|'
    · subst hpipe
      have hwritten : pipeChar '|' = ['\\', '|'] := if_pos rfl
      rw [hwritten, List.foldl_cons, List.foldl_cons, List.foldl_nil]
      cases escaped with
      | true =>
        -- the backslash of the cell takes that of the pipe
        refine Or.inl (Nat.lt_of_lt_of_le ?_ (length_seenle _ _))
        simp [cellTurn]
      | false =>
        have hturn : cellTurn (cellTurn ⟨values, seen, false⟩ '\\') '|' =
            ⟨values, seen ++ ['|'], false⟩ := rfl
        rw [hturn]
        refine (ih (seen ++ ['|']) false).imp_right ?_
        rintro ⟨read, hread, heq⟩
        exact ⟨'|' :: read, hmore hread, by rw [heq]; simp⟩
    · have hwritten : pipeChar c = [c] := if_neg hpipe
      rw [hwritten, List.foldl_cons, List.foldl_nil]
      by_cases hslash : escaped = false ∧ c = '\\'
      · obtain ⟨rfl, rfl⟩ := hslash
        have hturn : cellTurn ⟨values, seen, false⟩ '\\' = ⟨values, seen, true⟩ := rfl
        rw [hturn]
        refine (ih seen true).imp_right ?_
        rintro ⟨read, hread, heq⟩
        exact ⟨read, Nat.le_succ_of_le hread, heq⟩
      · have hturn : cellTurn ⟨values, seen, escaped⟩ c = ⟨values, seen ++ [c], false⟩ := by
          unfold cellTurn
          cases escaped <;> simp_all
        rw [hturn]
        refine (ih (seen ++ [c]) false).imp_right ?_
        rintro ⟨read, hread, heq⟩
        exact ⟨c :: read, hmore hread, by rw [heq]; simp⟩

/-- **An Office cell is read as it was exactly when it has no backslash.** -/
theorem innerCells_pipes_iff {t : Text} (htrim : trim t = t) :
    innerCells (padded (t.flatMap pipeChar)) = [t] ↔ '\\' ∉ t := by
  constructor
  · intro hread hslash
    obtain ⟨x, y, rfl, hx⟩ := List.eq_append_cons_of_mem hslash
    have hwritten : padded ((x ++ '\\' :: y).flatMap pipeChar) =
        ' ' :: x.flatMap pipeChar ++ ['\\'] ++ (y.flatMap pipeChar ++ [' ']) := by
      rw [List.flatMap_append, List.flatMap_cons, show pipeChar '\\' = ['\\'] from rfl]
      simp [padded]
    have hbefore : (' ' :: x.flatMap pipeChar ++ ['\\']).foldl cellTurn .start =
        ⟨[], ' ' :: x, true⟩ := by
      have hspace : cellTurn .start ' ' = ⟨[], [' '], false⟩ := rfl
      have hplain := readsAs_pipes hx [] [' ']
      rw [← hspace, ← List.foldl_cons] at hplain
      rw [List.foldl_append, hplain]
      rfl
    rw [innerCells, hwritten, List.foldl_append, hbefore] at hread
    rcases read_rest y (' ' :: x) [] true with hmore | ⟨read, hlength, hrest⟩
    · -- a pipe of the cell has ended it
      have hcount := congrArg List.length hread
      rw [List.length_append, List.length_singleton, List.length_singleton] at hcount
      rw [List.length_nil] at hmore
      omega
    · have hpadded : ' ' :: x ++ read ++ [' '] = padded (x ++ read) := rfl
      rw [hrest, List.nil_append, List.singleton_inj] at hread
      dsimp only at hread
      rw [hpadded, trim_padded] at hread
      have hshort := length_trim_le (x ++ read)
      rw [hread] at hshort
      simp only [List.length_append, List.length_cons] at hshort
      omega
  · intro hslash
    rw [(readsAs_pipes hslash).innerCells, htrim]

/-! ### Rows -/

/-- Trimming and replacing line breaks leave the backslashes. -/
theorem backslash_mem_shown (v : Text) : '\\' ∈ RowWriter.office.shown v ↔ '\\' ∈ v := by
  rw [RowWriter.shown, mem_trim_iff (by decide), spaceBreaks, List.mem_map]
  constructor
  · rintro ⟨c, hc, heq⟩
    split_ifs at heq
    · exact absurd heq (by decide)
    · rwa [← heq]
  · exact fun h => ⟨_, h, by simp⟩

theorem innerCells_ne_nil (t : Text) : innerCells t ≠ [] := by simp [innerCells]

/-- Lists of at least one item each are single items if they are as many as these. -/
theorem flatMap_eq_map_iff {α β : Type*} {read : α → List β} {shown : α → β}
    (hne : ∀ a, read a ≠ []) (l : List α) :
    l.flatMap read = l.map shown ↔ ∀ a ∈ l, read a = [shown a] := by
  have hlength (l : List α) : l.length ≤ (l.flatMap read).length := by
    induction l with
    | nil => exact le_rfl
    | cons a l ih =>
      have hpos := List.length_pos_iff.2 (hne a)
      rw [List.flatMap_cons, List.length_append, List.length_cons]
      omega
  constructor
  · intro h
    induction l with
    | nil => simp
    | cons a l ih =>
      rw [List.flatMap_cons, List.map_cons] at h
      have hall := congrArg List.length h
      have hrest := hlength l
      have hpos := List.length_pos_iff.2 (hne a)
      rw [List.length_append, List.length_cons, List.length_map] at hall
      obtain ⟨b, hb⟩ := List.length_eq_one_iff.1 (show (read a).length = 1 by omega)
      rw [hb, List.singleton_append, List.cons.injEq] at h
      intro d hd
      rcases List.mem_cons.1 hd with rfl | hd
      · rw [hb, h.1]
      · exact ih h.2 d hd
  · intro h
    induction l with
    | nil => rfl
    | cons a l ih =>
      rw [List.flatMap_cons, List.map_cons, h a List.mem_cons_self,
        ih fun b hb => h b (List.mem_cons_of_mem _ hb)]
      rfl

/-- The cells of a row can be read again, and rows with the same key have the same key cells. -/
structure Survives (w : RowWriter) (values : List Text) : Prop where
  cells : cells (w.row values) = values.map w.shown
  key : ∀ (w' : RowWriter) (values' : List Text),
    Archive.cells (w'.row values') = values'.map w'.shown →
    ∀ columns header label key key', keyValues columns header (Archive.cells (w.row values)) = some key →
      keyValues columns header (Archive.cells (w'.row values')) = some key' →
      rowKeyText label key = rowKeyText label key' →
        keyValues columns header (values.map w.shown) = keyValues columns header (values'.map w'.shown)

theorem cells_row_iff (w : RowWriter) {values : List Text} (hne : values ≠ []) :
    cells (w.row values) = values.map w.shown ↔ w = .csv ∨ ∀ v ∈ values, '\\' ∉ v := by
  have hread : cells (w.row values) = values.flatMap fun v => innerCells (padded (w.escape v)) := by
    rw [RowWriter.row, cells_tableLine (by simpa using hne), List.flatMap_map]
  rw [hread, flatMap_eq_map_iff fun v => innerCells_ne_nil _]
  cases w with
  | csv => exact iff_of_true (fun v _ => innerCells_csv v) (Or.inl rfl)
  | office =>
    have hcell (v : Text) : innerCells (padded (RowWriter.office.escape v)) =
        [RowWriter.office.shown v] ↔ '\\' ∉ v := by
      have htrim : trim (RowWriter.office.shown v) = RowWriter.office.shown v := trim_trim _
      rw [RowWriter.escape, escapeMarkdownCell_eq, innerCells_pipes_iff htrim, backslash_mem_shown]
    simp [hcell]

/-- **The cells of a row survive exactly when it is a CSV row or they have no backslash.** -/
theorem survives_iff (w : RowWriter) {values : List Text} (hne : values ≠ []) :
    Survives w values ↔ w = .csv ∨ ∀ v ∈ values, '\\' ∉ v := by
  rw [← cells_row_iff w hne]
  refine ⟨fun h => h.cells, fun hcells => ⟨hcells, ?_⟩⟩
  intro w' values' hcells' columns header label key key' hkey hkey' htext
  rw [← hcells, ← hcells', hkey, hkey', rowKeyText_injective htext]

/-- Two cells of an Office row. -/
theorem survives_iff_two : Survives .office [lit "a|b", []] ↔
    RowWriter.office = .csv ∨ ∀ v ∈ [lit "a|b", []], '\\' ∉ v :=
  survives_iff .office (by simp)

/-- **A backslash of an Office cell is lost.** -/
theorem backslash_lost : ¬ ∀ (w : RowWriter) (values : List Text), values ≠ [] →
    Survives w values := by
  intro h
  have hcells := (h .office [['C', ':', '\\']] (by simp)).cells
  exact absurd hcells (by decide +kernel)

end DailyReport.Archive
