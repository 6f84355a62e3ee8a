import DailyReport.Archive.Cells
import DailyReport.Lib.EditScript
import DailyReport.Lib.Except
import DailyReport.Lib.Utf8

/-!
# Comparing two archived records

`compare` looks for units that two records share by a key that occurs once in each of them, keeps a
longest increasing sequence of these anchors, and reports a hunk for what differs between two
anchors and for an anchor whose unit has changed.

* `compareUnits_script` : **the hunks lead from the old units to the new ones**;
* `compare_script` : **so do the hunks of two records**, unless their bodies are equal: these are
  continued without a comparison of their units.
-/

namespace DailyReport.Archive

open Lib TextParser

/-- A line of the unit index. -/
structure ArchiveUnit where
  kind : ContentUnitKind
  byteStart : ℕ
  byteEnd : ℕ
  sha256 : Text
  ranges : List SourceRange

/-- A record of the archive, with the fields of its manifest that are compared. -/
structure ArchivedRecord where
  bodySha256 : Text
  units : ℕ
  lines : List ArchiveUnit
  body : Bytes
  /-- The writer counts the lines of the index. -/
  counted : units = lines.length

/-- A unit as it is compared. -/
structure DiffUnit where
  hash : Text
  key : Text
  deriving DecidableEq

/-! ### The units of a record -/

section

variable [UnicodeCase]

/-- The headers of the tables, the first one of each label. -/
abbrev TableHeaders := List (Text × List Text)

def TableHeaders.orInsert (headers : TableHeaders) (label : Text) (header : List Text) :
    TableHeaders :=
  if (headers.lookup label).isSome then headers else headers ++ [(label, header)]

def isTableUnit (kind : ContentUnitKind) : Bool :=
  decide (kind ∈ [ContentUnitKind.tableHeader, .tableRow, .total])

/-- The text of a unit. -/
def unitText (body : Bytes) (unit : ArchiveUnit) : Except Text Text :=
  if unit.byteEnd < unit.byteStart ∨ body.length < unit.byteEnd then .error (lit "IO_FAILED")
  else
    let read := decodeUtf8 ((body.drop unit.byteStart).take (unit.byteEnd - unit.byteStart))
    if read.stop = .complete then .ok read.text else .error (lit "ARCHIVE_TEXT_INVALID")

/-- The key of a row of a table, if it has one. -/
def rowKey (digest : Text → Text) (keys : Text → Option (List Text)) (headers : TableHeaders)
    (label : Text) (row : List Text) : Option Text :=
  match headers.lookup label with
  | none => none
  | some header =>
    match keyValues (keyColumns (keys label) header) header row with
    | some (value :: values) => some (digest (rowKeyText label (value :: values)))
    | _ => none

/-- The turn of one line of the index. -/
def indexTurn (digest : Text → Text) (keys : Text → Option (List Text)) (body : Bytes)
    (state : TableHeaders × List DiffUnit) (unit : ArchiveUnit) :
    Except Text (TableHeaders × List DiffUnit) :=
  let (headers, output) := state
  if isTableUnit unit.kind then
    match unitText body unit with
    | .error e => .error e
    | .ok text =>
      let label := (unit.ranges.head?.bind SourceRange.label).getD (lit "table")
      let row := cells text
      let headers :=
        if unit.kind = .tableHeader ∧
            !row.all (fun cell => cell.all fun c => c == '-' || c == ':' || c == ' ') then
          headers.orInsert label row
        else headers
      .ok (headers, output ++
        [⟨unit.sha256, (rowKey digest keys headers label row).getD unit.sha256⟩])
  else .ok (headers, output ++ [⟨unit.sha256, unit.sha256⟩])

/-- The units of a record with their keys. -/
def indexes (digest : Text → Text) (keys : Text → Option (List Text)) (record : ArchivedRecord) :
    Except Text (List DiffUnit) :=
  (record.lines.foldlM (indexTurn digest keys record.body) ([], [])).map Prod.snd

end

/-! ### Anchors -/

/-- Pairs of units with a key that occurs once on either side, in the order of the old record. -/
def uniquePairs (a b : List DiffUnit) : List (ℕ × ℕ) :=
  a.zipIdx.filterMap fun (u, i) =>
    match b.zipIdx.filter fun v => v.1.key = u.key with
    | [v] => if a.countP (fun v => v.key = u.key) = 1 then some (i, v.2) else none
    | _ => none

/-- The ends of increasing sequences of pairs, a shortest sequence first, and for every pair the one
before it. -/
structure Patience where
  tails : List ℕ
  previous : List (Option ℕ)

/-- The new position of a pair. -/
def newIndex (pairs : List (ℕ × ℕ)) (i : ℕ) : ℕ := (pairs.getD i (0, 0)).2

/-- The turn of one pair: it goes behind the longest sequence that ends before it.  The ends are in
order, so that the partition point is the first one that is not before it. -/
def Patience.turn (pairs : List (ℕ × ℕ)) (s : Patience) (i : ℕ) : Patience :=
  let pos := (s.tails.takeWhile fun p => newIndex pairs p < newIndex pairs i).length
  { tails := if pos = s.tails.length then s.tails ++ [i] else s.tails.set pos i
    previous := s.previous ++ [if pos > 0 then s.tails[pos - 1]? else none] }

def patience (pairs : List (ℕ × ℕ)) : Patience :=
  (List.range pairs.length).foldl (Patience.turn pairs) ⟨[], []⟩

/-- The pairs from the end of a sequence back to its beginning, in their order.  Every pair is
behind the one before it, so that there are no more of them than pairs. -/
def backtrack (pairs : List (ℕ × ℕ)) (previous : List (Option ℕ)) :
    ℕ → Option ℕ → List (ℕ × ℕ) → List (ℕ × ℕ)
  | fuel + 1, some i, later =>
    backtrack pairs previous fuel (previous.getD i none) (pairs.getD i (0, 0) :: later)
  | _, _, later => later

def anchors (a b : List DiffUnit) : List (ℕ × ℕ) :=
  let pairs := uniquePairs a b
  let s := patience pairs
  backtrack pairs s.previous pairs.length s.tails.getLast? []

/-! ### Hunks -/

/-- Units at the front that are the same. -/
def commonUnits : List DiffUnit → List DiffUnit → ℕ
  | u :: a, v :: b => if u.hash = v.hash then commonUnits a b + 1 else 0
  | _, _ => 0

/-- The hunk from and up to positions that are counted from zero. -/
def hunkAt (beginA endA beginB endB : ℕ) : Hunk :=
  ⟨⟨beginA + 1, endA + 1⟩, ⟨beginB + 1, endB + 1⟩⟩

/-- The hunk of a gap: what is left of it without its common ends. -/
def gapHunk (a b : List DiffUnit) (x i y j : ℕ) : List Hunk :=
  let gapA := (a.drop x).take (i - x)
  let gapB := (b.drop y).take (j - y)
  let front := commonUnits gapA gapB
  let back := commonUnits (gapA.drop front).reverse (gapB.drop front).reverse
  if x + front ≠ i - back ∨ y + front ≠ j - back then
    [hunkAt (x + front) (i - back) (y + front) (j - back)]
  else []

/-- The hunk of an anchor whose unit has changed. -/
def anchorHunk (a b : List DiffUnit) (i j : ℕ) : List Hunk :=
  match a[i]?, b[j]? with
  | some u, some v => if u.hash ≠ v.hash then [hunkAt i (i + 1) j (j + 1)] else []
  | _, _ => []

def hunksFrom (a b : List DiffUnit) : ℕ → ℕ → List (ℕ × ℕ) → List Hunk
  | _, _, [] => []
  | x, y, (i, j) :: rest =>
    gapHunk a b x i y j ++ anchorHunk a b i j ++ hunksFrom a b (i + 1) (j + 1) rest

def compareUnits (a b : List DiffUnit) : List Hunk :=
  hunksFrom a b 0 0 (anchors a b ++ [(a.length, b.length)])

/-! ### Comparing records -/

structure Changes where
  version : ℕ
  kind : Text
  granularity : Text
  hunks : List Hunk
  deriving DecidableEq

/-- Units of a record that are compared one by one. -/
def comparedUnits : ℕ := 100000

/-- Compare two records of a store. -/
def compare [UnicodeCase] (digest : Text → Text) (store : Text → Except Text ArchivedRecord)
    (before : Option Text) (after : Text) (keys : Text → Option (List Text)) :
    Except Text Changes :=
  match store after with
  | .error e => .error e
  | .ok new =>
    match before with
    | none => .ok ⟨1, lit "added", lit "unit", [⟨⟨1, 1⟩, ⟨1, new.units + 1⟩⟩]⟩
    | some before =>
      match store before with
      | .error e => .error e
      | .ok old =>
        if old.bodySha256 = new.bodySha256 then .ok ⟨1, lit "continued", lit "unit", []⟩
        else if old.units > comparedUnits ∨ new.units > comparedUnits then
          .ok ⟨1, lit "modified", lit "document", [⟨⟨1, old.units + 1⟩, ⟨1, new.units + 1⟩⟩]⟩
        else
          match indexes digest keys old, indexes digest keys new with
          | .ok a, .ok b => .ok ⟨1, lit "modified", lit "unit", compareUnits a b⟩
          | .error e, _ => .error e
          | .ok _, .error e => .error e

/-! ### The anchors increase -/

/-- A pair stands before another one in both records. -/
def Before (p q : ℕ × ℕ) : Prop := p.1 < q.1 ∧ p.2 < q.2

theorem Before.trans {p q r : ℕ × ℕ} (h : Before p q) (h' : Before q r) : Before p r :=
  ⟨h.1.trans h'.1, h.2.trans h'.2⟩

section

variable {a b : List DiffUnit}

theorem mem_uniquePairs {p : ℕ × ℕ} (h : p ∈ uniquePairs a b) :
    p.1 < a.length ∧ p.2 < b.length := by
  obtain ⟨⟨u, i⟩, hu, hpair⟩ := List.mem_filterMap.1 h
  have hi := List.snd_lt_of_mem_zipIdx hu
  dsimp only at hpair
  split at hpair
  next v hv =>
    split_ifs at hpair
    cases hpair
    have hmem : v ∈ b.zipIdx := List.mem_of_mem_filter (hv ▸ List.mem_singleton_self v)
    exact ⟨by simpa using hi, by simpa using List.snd_lt_of_mem_zipIdx hmem⟩
  next => cases hpair

/-- The pairs are in the order of the old record. -/
theorem sorted_uniquePairs (a b : List DiffUnit) :
    (uniquePairs a b).Pairwise fun p q => p.1 < q.1 := by
  have hindices : a.zipIdx.Pairwise fun u v => u.2 < v.2 := by
    have hrange : (a.zipIdx.map Prod.snd).Pairwise (· < ·) := by
      rw [List.zipIdx_map_snd]
      exact List.pairwise_lt_range'
    exact List.pairwise_map.1 hrange
  have hfst {u : DiffUnit × ℕ} {p : ℕ × ℕ}
      (h : (match b.zipIdx.filter fun v => v.1.key = u.1.key with
        | [v] => if a.countP (fun v => v.key = u.1.key) = 1 then some (u.2, v.2) else none
        | _ => none) = some p) : p.1 = u.2 := by
    split at h
    · split_ifs at h
      cases h
      rfl
    · cases h
  refine List.pairwise_filterMap.2 (hindices.imp ?_)
  intro u v huv p hp q hq
  rw [hfst hp, hfst hq]
  exact huv

/-- What is known of the sequences behind the first pairs. -/
structure PatienceInv (pairs : List (ℕ × ℕ)) (k : ℕ) (s : Patience) : Prop where
  count : s.previous.length = k
  tails : ∀ p ∈ s.tails, p < k
  sorted : s.tails.Pairwise fun p q => newIndex pairs p < newIndex pairs q
  previous : ∀ p q, s.previous[p]? = some (some q) → q < p ∧ newIndex pairs q < newIndex pairs p

theorem PatienceInv.turn {pairs : List (ℕ × ℕ)} {k : ℕ} {s : Patience} (h : PatienceInv pairs k s) :
    PatienceInv pairs (k + 1) (s.turn pairs k) := by
  obtain ⟨hcount, htails, hsorted, hprevious⟩ := h
  have hsplit := List.takeWhile_append_dropWhile (p := fun p => decide (newIndex pairs p < newIndex pairs k))
    (l := s.tails)
  generalize hfront : s.tails.takeWhile (fun p => decide (newIndex pairs p < newIndex pairs k)) = front
    at hsplit
  generalize hback : s.tails.dropWhile (fun p => decide (newIndex pairs p < newIndex pairs k)) = back
    at hsplit
  have hless {p : ℕ} (hp : p ∈ front) : newIndex pairs p < newIndex pairs k := by
    rw [← hfront] at hp
    simpa using List.mem_takeWhile_imp hp
  have hnew : (s.turn pairs k).tails = front ++ k :: back.drop 1 := by
    unfold Patience.turn
    dsimp only
    rw [hfront, ← hsplit]
    cases back with
    | nil => simp
    | cons t back => simp
  refine ⟨?_, ?_, ?_, ?_⟩
  · rw [Patience.turn, List.length_append, hcount]
    rfl
  · rw [hnew]
    intro p hp
    rcases List.mem_append.1 hp with hp | hp
    · exact Nat.lt_succ_of_lt (htails p (hsplit ▸ List.mem_append_left _ hp))
    rcases List.mem_cons.1 hp with rfl | hp
    · exact Nat.lt_succ_self p
    · exact Nat.lt_succ_of_lt (htails p
        (hsplit ▸ List.mem_append_right _ (List.mem_of_mem_drop hp)))
  · rw [hnew]
    rw [← hsplit] at hsorted
    obtain ⟨hfirst, hlast, hbetween⟩ := List.pairwise_append.1 hsorted
    refine List.pairwise_append.2 ⟨hfirst, List.pairwise_cons.2 ⟨?_, ?_⟩, ?_⟩
    · -- the sequence that is replaced does not end before the pair
      intro q hq
      cases hcase : back with
      | nil =>
        rw [hcase] at hq
        cases hq
      | cons t rest =>
        rw [hcase] at hq hlast
        have hhead : ¬ newIndex pairs t < newIndex pairs k := by
          have hnot := List.head?_dropWhile_not (fun p => decide (newIndex pairs p < newIndex pairs k)) s.tails
          rw [hback, hcase] at hnot
          simpa using hnot
        have hbehind := (List.pairwise_cons.1 hlast).1 q hq
        omega
    · exact hlast.sublist (List.drop_sublist _ _)
    · intro p hp q hq
      rcases List.mem_cons.1 hq with rfl | hq
      · exact hless hp
      · exact hbetween p hp q (List.mem_of_mem_drop hq)
  · intro p q hq
    unfold Patience.turn at hq
    dsimp only at hq
    rw [hfront] at hq
    by_cases hp : p < k
    · rw [List.getElem?_append_left (by omega)] at hq
      exact hprevious p q hq
    · have hpk : p = k := by
        by_contra hne
        rw [List.getElem?_eq_none (by simp; omega)] at hq
        cases hq
      subst hpk
      rw [List.getElem?_append_right (by omega), hcount, Nat.sub_self] at hq
      simp only [List.getElem?_cons_zero, Option.some.injEq] at hq
      split_ifs at hq with hpos
      have hmem : q ∈ front := by
        rw [← hsplit, List.getElem?_append_left (by omega)] at hq
        exact List.mem_of_getElem? hq
      exact ⟨htails q (hsplit ▸ List.mem_append_left _ hmem), hless hmem⟩

theorem patience_inv (pairs : List (ℕ × ℕ)) : PatienceInv pairs pairs.length (patience pairs) := by
  have hrun : ∀ k, PatienceInv pairs k ((List.range k).foldl (Patience.turn pairs) ⟨[], []⟩) := by
    intro k
    induction k with
    | zero => exact ⟨rfl, by simp, List.Pairwise.nil, by simp⟩
    | succ k ih =>
      rw [List.range_succ, List.foldl_append]
      exact ih.turn
  exact hrun pairs.length

/-- The pairs of a sequence increase. -/
theorem backtrack_increasing {pairs : List (ℕ × ℕ)} {previous : List (Option ℕ)}
    (hsorted : pairs.Pairwise fun p q => p.1 < q.1)
    (hprevious : ∀ p q, previous[p]? = some (some q) → q < p ∧ newIndex pairs q < newIndex pairs p)
    {fuel : ℕ} {next : Option ℕ} {later : List (ℕ × ℕ)}
    (hlater : later.Pairwise Before ∧ ∀ p ∈ later, p ∈ pairs)
    (hnext : ∀ i, next = some i → i < pairs.length ∧ ∀ q ∈ later, Before (pairs.getD i (0, 0)) q) :
    (backtrack pairs previous fuel next later).Pairwise Before ∧
      ∀ p ∈ backtrack pairs previous fuel next later, p ∈ pairs := by
  induction fuel generalizing next later with
  | zero => exact hlater
  | succ fuel ih =>
    cases next with
    | none => exact hlater
    | some i =>
      obtain ⟨hi, hbefore⟩ := hnext i rfl
      have hget : pairs.getD i (0, 0) = pairs[i] := by
        rw [List.getD_eq_getElem?_getD, List.getElem?_eq_getElem hi, Option.getD_some]
      refine ih ⟨List.pairwise_cons.2 ⟨hbefore, hlater.1⟩, ?_⟩ ?_
      · intro p hp
        rcases List.mem_cons.1 hp with rfl | hp
        · rw [hget]
          exact List.getElem_mem hi
        · exact hlater.2 p hp
      · intro m hm
        have hsome : previous[i]? = some (some m) := by
          rw [List.getD_eq_getElem?_getD] at hm
          cases hentry : previous[i]? with
          | none => simp [hentry] at hm
          | some entry =>
            rw [hentry, Option.getD_some] at hm
            rw [hm]
        obtain ⟨hmi, hnewer⟩ := hprevious i m hsome
        have hm : m < pairs.length := by omega
        have hgetm : pairs.getD m (0, 0) = pairs[m] := by
          rw [List.getD_eq_getElem?_getD, List.getElem?_eq_getElem hm, Option.getD_some]
        have hstep : Before (pairs.getD m (0, 0)) (pairs.getD i (0, 0)) := by
          refine ⟨?_, hnewer⟩
          rw [hget, hgetm]
          exact List.pairwise_iff_getElem.1 hsorted m i (by omega) hi hmi
        refine ⟨by omega, fun q hq => ?_⟩
        rcases List.mem_cons.1 hq with rfl | hq
        · exact hstep
        · exact hstep.trans (hbefore q hq)

/-- **The anchors increase in both records.** -/
theorem anchors_increasing (a b : List DiffUnit) :
    (anchors a b).Pairwise Before ∧ ∀ p ∈ anchors a b, p.1 < a.length ∧ p.2 < b.length := by
  have hinv := patience_inv (uniquePairs a b)
  have hincreasing := @backtrack_increasing _ _ (sorted_uniquePairs a b) hinv.previous
    (uniquePairs a b).length (patience (uniquePairs a b)).tails.getLast? []
    ⟨List.Pairwise.nil, by simp⟩
    fun i (hi : (patience (uniquePairs a b)).tails.getLast? = some i) => ⟨hinv.tails i (List.mem_of_getLast? hi), by simp⟩
  exact ⟨hincreasing.1, fun p hp => mem_uniquePairs (hincreasing.2 p hp)⟩

end

/-! ### The hunks are a script -/

section

variable {a b : List DiffUnit}

/-- The hashes of some units. -/
def hashes (units : List DiffUnit) : List Text := units.map DiffUnit.hash

theorem commonUnits_spec (a b : List DiffUnit) :
    hashes (a.take (commonUnits a b)) = hashes (b.take (commonUnits a b)) ∧
      commonUnits a b ≤ a.length ∧ commonUnits a b ≤ b.length := by
  induction a generalizing b with
  | nil => exact ⟨by simp [commonUnits, hashes], Nat.le_refl _, Nat.zero_le _⟩
  | cons u a ih =>
    cases b with
    | nil => exact ⟨by simp [commonUnits, hashes], Nat.zero_le _, Nat.le_refl _⟩
    | cons v b =>
      unfold commonUnits
      split_ifs with h
      · obtain ⟨heq, ha, hb⟩ := ih b
        unfold hashes at heq ⊢
        refine ⟨?_, Nat.succ_le_succ ha, Nat.succ_le_succ hb⟩
        rw [List.take_succ_cons, List.take_succ_cons, List.map_cons, List.map_cons, h, heq]
      · exact ⟨by simp [hashes], Nat.zero_le _, Nat.zero_le _⟩

/-- The common units at the end. -/
theorem commonUnits_reverse (a b : List DiffUnit) :
    hashes (a.drop (a.length - commonUnits a.reverse b.reverse)) =
      hashes (b.drop (b.length - commonUnits a.reverse b.reverse)) := by
  have h := (commonUnits_spec a.reverse b.reverse).1
  rw [List.take_reverse, List.take_reverse] at h
  unfold hashes at h ⊢
  rw [List.map_reverse, List.map_reverse] at h
  exact List.reverse_injective h

@[simp] theorem length_hashes (units : List DiffUnit) : (hashes units).length = units.length :=
  List.length_map _

theorem hashes_append (a b : List DiffUnit) : hashes (a ++ b) = hashes a ++ hashes b :=
  List.map_append

/-- What is left between the common ends of two lists of units. -/
theorem exists_middle (a b : List DiffUnit) : ∃ head tail middleA middleB : List DiffUnit,
    hashes a = hashes head ++ (hashes middleA ++ hashes tail) ∧
    hashes b = hashes head ++ (hashes middleB ++ hashes tail) ∧
    head.length = commonUnits a b ∧
    tail.length = commonUnits (a.drop (commonUnits a b)).reverse (b.drop (commonUnits a b)).reverse ∧
    a.length = head.length + (middleA.length + tail.length) ∧
    b.length = head.length + (middleB.length + tail.length) := by
  obtain ⟨hfront, ha, hb⟩ := commonUnits_spec a b
  generalize commonUnits a b = front at hfront ha hb
  have hrest := commonUnits_reverse (a.drop front) (b.drop front)
  obtain ⟨-, ha', hb'⟩ := commonUnits_spec (a.drop front).reverse (b.drop front).reverse
  rw [List.length_reverse] at ha' hb'
  generalize commonUnits (a.drop front).reverse (b.drop front).reverse = back at hrest ha' hb'
  have hsplit (l : List DiffUnit) : hashes l = hashes (l.take front) ++
      (hashes ((l.drop front).take ((l.drop front).length - back)) ++
        hashes ((l.drop front).drop ((l.drop front).length - back))) := by
    rw [← hashes_append, List.take_append_drop, ← hashes_append, List.take_append_drop]
  have hsplitB := hsplit b
  rw [← hfront, ← hrest] at hsplitB
  refine ⟨_, _, _, _, hsplit a, hsplitB, ?_, ?_, ?_, ?_⟩ <;>
    simp only [List.length_take, List.length_drop] at ha' hb' ⊢ <;> omega

/-- **The hunk of a gap.** -/
theorem gap_script {x i y j : ℕ} {old new : List Text} {hunks : List Hunk} (hxi : x ≤ i)
    (hi : i ≤ a.length) (hyj : y ≤ j) (hj : j ≤ b.length)
    (h : Script (i + 1) (j + 1) old new hunks) :
    Script (x + 1) (y + 1) (hashes ((a.drop x).take (i - x)) ++ old)
      (hashes ((b.drop y).take (j - y)) ++ new) (gapHunk a b x i y j ++ hunks) := by
  have hlengthA : ((a.drop x).take (i - x)).length = i - x := by
    rw [List.length_take, List.length_drop]
    omega
  have hlengthB : ((b.drop y).take (j - y)).length = j - y := by
    rw [List.length_take, List.length_drop]
    omega
  unfold gapHunk
  dsimp only
  generalize (a.drop x).take (i - x) = gapA at hlengthA
  generalize (b.drop y).take (j - y) = gapB at hlengthB
  obtain ⟨head, tail, middleA, middleB, hA, hB, hfront, hback, hcountA, hcountB⟩ :=
    exists_middle gapA gapB
  rw [← hback, ← hfront, hA, hB, List.append_assoc, List.append_assoc, List.append_assoc,
    List.append_assoc]
  have hkeep : Script (x + 1 + head.length + middleA.length) (y + 1 + head.length + middleB.length)
      (hashes tail ++ old) (hashes tail ++ new) hunks := by
    refine .keepAll _ ?_
    rw [length_hashes]
    convert h using 1 <;> omega
  refine .keepAll _ ?_
  rw [length_hashes]
  split_ifs with hchanged
  · have hchange := Script.change (hashes middleA) (hashes middleB)
      (by rw [length_hashes, length_hashes]; exact hkeep)
    rw [length_hashes, length_hashes] at hchange
    rw [List.singleton_append]
    convert hchange using 2
    unfold hunkAt
    congr 2 <;> omega
  · have hnilA : middleA = [] := List.length_eq_zero_iff.1 (by omega)
    have hnilB : middleB = [] := List.length_eq_zero_iff.1 (by omega)
    subst hnilA hnilB
    exact hkeep

/-- The hunk of an anchor. -/
theorem anchor_script {i j : ℕ} {old new : List Text} {hunks : List Hunk} (hi : i < a.length)
    (hj : j < b.length) (h : Script (i + 1 + 1) (j + 1 + 1) old new hunks) :
    Script (i + 1) (j + 1) (a[i].hash :: old) (b[j].hash :: new)
      (anchorHunk a b i j ++ hunks) := by
  unfold anchorHunk
  rw [List.getElem?_eq_getElem hi, List.getElem?_eq_getElem hj]
  dsimp only
  split_ifs with hchanged
  · exact .change [a[i].hash] [b[j].hash] h
  · rw [not_not] at hchanged
    rw [hchanged]
    exact .keep _ h

/-- Anchors behind two positions. -/
def AnchorsFrom (a b : List DiffUnit) : ℕ → ℕ → List (ℕ × ℕ) → Prop
  | x, y, [] => x ≤ a.length ∧ y ≤ b.length
  | x, y, (i, j) :: rest =>
    x ≤ i ∧ i < a.length ∧ y ≤ j ∧ j < b.length ∧ AnchorsFrom a b (i + 1) (j + 1) rest

theorem anchorsFrom {pairs : List (ℕ × ℕ)} (hincreasing : pairs.Pairwise Before)
    (hwithin : ∀ p ∈ pairs, p.1 < a.length ∧ p.2 < b.length) {x y : ℕ} (hx : x ≤ a.length)
    (hy : y ≤ b.length) (hfrom : ∀ p ∈ pairs, x ≤ p.1 ∧ y ≤ p.2) : AnchorsFrom a b x y pairs := by
  induction pairs generalizing x y with
  | nil => exact ⟨hx, hy⟩
  | cons p pairs ih =>
    obtain ⟨hbefore, hincreasing⟩ := List.pairwise_cons.1 hincreasing
    obtain ⟨hi, hj⟩ := hwithin p List.mem_cons_self
    obtain ⟨hxi, hyj⟩ := hfrom p List.mem_cons_self
    exact ⟨hxi, hi, hyj, hj, ih hincreasing (fun q hq => hwithin q (List.mem_cons_of_mem _ hq)) hi hj
      hbefore⟩

/-- **The hunks behind two positions.** -/
theorem hunksFrom_script {x y : ℕ} {pairs : List (ℕ × ℕ)} (h : AnchorsFrom a b x y pairs) :
    Script (x + 1) (y + 1) (hashes (a.drop x)) (hashes (b.drop y))
      (hunksFrom a b x y (pairs ++ [(a.length, b.length)])) := by
  induction pairs generalizing x y with
  | nil =>
    obtain ⟨hx, hy⟩ := h
    have hnone : anchorHunk a b a.length b.length = [] := by simp [anchorHunk]
    have hgap := gap_script (a := a) (b := b) hx le_rfl hy le_rfl Script.nil
    rw [List.take_of_length_le (by simp), List.take_of_length_le (by simp)] at hgap
    rw [List.nil_append, hunksFrom, hnone, hunksFrom, List.append_nil]
    simpa using hgap
  | cons p pairs ih =>
    obtain ⟨i, j⟩ := p
    obtain ⟨hxi, hi, hyj, hj, hrest⟩ := h
    have hsplit {l : List DiffUnit} {x i : ℕ} (hxi : x ≤ i) (hi : i < l.length) :
        hashes (l.drop x) = hashes ((l.drop x).take (i - x)) ++ l[i].hash :: hashes (l.drop (i + 1)) := by
      have hdrop : l.drop i = l[i] :: l.drop (i + 1) := List.drop_eq_getElem_cons hi
      have hlater : (l.drop x).drop (i - x) = l.drop i := by
        rw [List.drop_drop]
        congr 1
        omega
      conv_lhs => rw [← List.take_append_drop (i - x) (l.drop x), hlater, hdrop, hashes_append]
      rfl
    rw [hsplit hxi hi, hsplit hyj hj, List.cons_append, hunksFrom, List.append_assoc]
    exact gap_script hxi hi.le hyj hj.le (anchor_script hi hj (ih hrest))

/-- **The hunks lead from the old units to the new ones.** -/
theorem compareUnits_script (a b : List DiffUnit) :
    Script 1 1 (hashes a) (hashes b) (compareUnits a b) := by
  obtain ⟨hincreasing, hwithin⟩ := anchors_increasing a b
  exact hunksFrom_script (x := 0) (y := 0) (anchorsFrom hincreasing hwithin (Nat.zero_le _)
    (Nat.zero_le _) fun p _ => ⟨Nat.zero_le _, Nat.zero_le _⟩)

end

/-! ### The hunks of two records -/

/-- The hashes of the units of a record. -/
def ArchivedRecord.hashes (record : ArchivedRecord) : List Text := record.lines.map ArchiveUnit.sha256

/-- The hunks are in order and apart in both sequences, lead from the old one to the new one, and
leave units outside that are the same. -/
structure IsEditScript (old new : List Text) (hunks : List Hunk) : Prop where
  ordered : OrderedFrom 1 (hunks.map Hunk.before) ∧ OrderedFrom 1 (hunks.map Hunk.after)
  patched : patch 1 1 old new hunks = new
  matched : outside 1 old (hunks.map Hunk.before) = outside 1 new (hunks.map Hunk.after)

theorem IsEditScript.of_script {old new : List Text} {hunks : List Hunk}
    (h : Script 1 1 old new hunks) : IsEditScript old new hunks := ⟨h.ordered, h.patch, h.outside⟩

/-- No hunks are a script between equal sequences only. -/
theorem isEditScript_nil_iff {old new : List Text} : IsEditScript old new [] ↔ old = new := by
  refine ⟨fun h => h.patched, ?_⟩
  rintro rfl
  exact ⟨⟨trivial, trivial⟩, rfl, rfl⟩

/-- One hunk for everything. -/
theorem isEditScript_whole (old new : List Text) :
    IsEditScript old new [⟨⟨1, old.length + 1⟩, ⟨1, new.length + 1⟩⟩] := by
  have h := Script.change (x := 1) (y := 1) old new Script.nil
  rw [List.append_nil, List.append_nil, Nat.add_comm 1, Nat.add_comm 1] at h
  exact .of_script h

section

variable [UnicodeCase] {digest : Text → Text} {keys : Text → Option (List Text)}

theorem indexTurn_output {body : Bytes} {headers headers' : TableHeaders}
    {output output' : List DiffUnit} {unit : ArchiveUnit}
    (h : indexTurn digest keys body (headers, output) unit = .ok (headers', output')) :
    ∃ key, output' = output ++ [⟨unit.sha256, key⟩] := by
  unfold indexTurn at h
  dsimp only at h
  split_ifs at h
  · cases htext : unitText body unit with
    | error e => rw [htext] at h; cases h
    | ok text =>
      rw [htext] at h
      cases h
      exact ⟨_, rfl⟩
  · cases h
    exact ⟨_, rfl⟩

/-- **The index has the hashes of the units.** -/
theorem hashes_indexes {record : ArchivedRecord} {units : List DiffUnit}
    (h : indexes digest keys record = .ok units) : hashes units = record.hashes := by
  obtain ⟨⟨headers, output⟩, hrun, rfl⟩ := map_eq_ok.1 h
  have hlines : ∀ (lines : List ArchiveUnit) (state : TableHeaders × List DiffUnit),
      lines.foldlM (indexTurn digest keys record.body) state = .ok (headers, output) →
        hashes output = hashes state.2 ++ lines.map ArchiveUnit.sha256 := by
    intro lines
    induction lines with
    | nil =>
      intro state hstate
      cases hstate
      simp
    | cons unit lines ih =>
      intro state hstate
      obtain ⟨⟨headers', output'⟩, hturn, hrest⟩ := foldlM_cons_eq_ok.1 hstate
      obtain ⟨key, rfl⟩ := indexTurn_output hturn
      rw [ih _ hrest, hashes_append, List.map_cons, List.append_assoc]
      rfl
  exact hlines record.lines ([], []) hrun

variable {store : Text → Except Text ArchivedRecord} {before : Option Text} {after : Text}
  {changes : Changes}

/-- **The hunks of two records are an edit script**; records with equal bodies are continued without
hunks, whatever their units are. -/
theorem compare_script (h : compare digest store before after keys = .ok changes) :
    ∃ new, store after = .ok new ∧
      match before with
      | none => IsEditScript [] new.hashes changes.hunks
      | some id => ∃ old, store id = .ok old ∧
        if old.bodySha256 = new.bodySha256 then
          changes.kind = lit "continued" ∧ changes.hunks = [] ∧
            (IsEditScript old.hashes new.hashes changes.hunks ↔ old.hashes = new.hashes)
        else IsEditScript old.hashes new.hashes changes.hunks := by
  unfold compare at h
  cases hnew : store after with
  | error e => rw [hnew] at h; cases h
  | ok new =>
    rw [hnew] at h
    refine ⟨new, rfl, ?_⟩
    have hunits : new.units = new.hashes.length := by
      rw [new.counted, ArchivedRecord.hashes, List.length_map]
    cases before with
    | none =>
      cases h
      dsimp only
      rw [hunits]
      exact isEditScript_whole [] new.hashes
    | some id =>
      dsimp only at h ⊢
      cases hold : store id with
      | error e => rw [hold] at h; cases h
      | ok old =>
        rw [hold] at h
        dsimp only at h
        have holdUnits : old.units = old.hashes.length := by
          rw [old.counted, ArchivedRecord.hashes, List.length_map]
        refine ⟨old, rfl, ?_⟩
        split_ifs at h ⊢ with hbody hlarge
        · cases h
          exact ⟨rfl, rfl, isEditScript_nil_iff⟩
        · cases h
          dsimp only
          rw [hunits, holdUnits]
          exact isEditScript_whole old.hashes new.hashes
        · cases ha : indexes digest keys old with
          | error e => rw [ha] at h; cases h
          | ok a =>
            cases hb : indexes digest keys new with
            | error e => rw [ha, hb] at h; cases h
            | ok b =>
              rw [ha, hb] at h
              cases h
              rw [← hashes_indexes ha, ← hashes_indexes hb]
              exact .of_script (compareUnits_script a b)

end

/-! ### Slides with the same text -/

local instance diffCase : UnicodeCase := asciiCase

/-- Two lines of a slide. -/
def slideText : Bytes := ['A', '\n', 'B'].map asciiByte

def slideHash : Text := lit "23519a43c66b4c342f25b32e09797ec5f3fc0be388cd8243fb3449afbdce4013"

def slideUnit (byteStart byteEnd : ℕ) (sha256 : Text) : ArchiveUnit :=
  ⟨.slide, byteStart, byteEnd, sha256, [⟨.slide, 1, 2, none, none, none⟩]⟩

/-- The lines in one unit. -/
def slideRecord : ArchivedRecord := ⟨slideHash, 1, [slideUnit 0 3 slideHash], slideText, rfl⟩

/-- The lines in two units. -/
def splitRecord : ArchivedRecord :=
  ⟨slideHash, 2,
    [slideUnit 0 1 (lit "559aead08264d5795d3909718cdd05abd49572e84fe55590eef31a88a08fdffd"),
      slideUnit 2 3 (lit "df7e70e5021544f4834bbee64a9e3789febc4be81470df629cad6ddb03320a5c")],
    slideText, rfl⟩

/-- The first line alone. -/
def lineRecord : ArchivedRecord :=
  ⟨lit "559aead08264d5795d3909718cdd05abd49572e84fe55590eef31a88a08fdffd", 1,
    [slideUnit 0 1 (lit "559aead08264d5795d3909718cdd05abd49572e84fe55590eef31a88a08fdffd")],
    ['A'].map asciiByte, rfl⟩

def slideStore (id : Text) : Except Text ArchivedRecord :=
  if id = ['1'] then .ok slideRecord else if id = ['2'] then .ok splitRecord else .ok lineRecord

/-- **Records with equal bodies may differ in their units.** -/
theorem equal_bodies_differ : ¬ ∀ (digest : Text → Text) (store : Text → Except Text ArchivedRecord)
    (before after : Text) (keys : Text → Option (List Text)) (changes : Changes)
    (old new : ArchivedRecord), store before = .ok old → store after = .ok new →
      compare digest store (some before) after keys = .ok changes →
        IsEditScript old.hashes new.hashes changes.hunks := by
  intro h
  have hscript := h id slideStore ['1'] ['2'] (fun _ => none)
    ⟨1, lit "continued", lit "unit", []⟩ slideRecord splitRecord rfl rfl (by decide +kernel)
  have hlength := congrArg List.length (isEditScript_nil_iff.1 hscript)
  exact absurd hlength (by decide)

/-- A line is new. -/
theorem compare_script_line : ∃ new, slideStore ['2'] = .ok new ∧
    ∃ old, slideStore ['3'] = .ok old ∧
      if old.bodySha256 = new.bodySha256 then
        (lit "modified" : Text) = lit "continued" ∧ [(⟨⟨2, 2⟩, ⟨2, 3⟩⟩ : Hunk)] = [] ∧
          (IsEditScript old.hashes new.hashes [⟨⟨2, 2⟩, ⟨2, 3⟩⟩] ↔ old.hashes = new.hashes)
      else IsEditScript old.hashes new.hashes [⟨⟨2, 2⟩, ⟨2, 3⟩⟩] :=
  @compare_script _ id (fun _ => none) slideStore (some ['3']) ['2']
    ⟨1, lit "modified", lit "unit", [⟨⟨2, 2⟩, ⟨2, 3⟩⟩]⟩ (by decide +kernel)

end DailyReport.Archive
