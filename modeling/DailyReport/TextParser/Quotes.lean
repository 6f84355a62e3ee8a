import DailyReport.Excerpts.Pieces
import DailyReport.TextParser.Validity
import Mathlib.Data.List.Flatten

/-!
# What the units of a text quote

A unit with ranges is the text of the file at these ranges, line by line.  The ranges of the units
go forward through the file, except that every group of rows of a long table begins with the ranges
of its header and its separator.

* `textPieces_quotes`, `textPieces_ordered` : the pieces quote the file, one behind the other;
* `textPushes_quotes`, `textPushes_follow` : so do the units that are pushed;
* `units_quote` : **the units of every text quote it, and their ranges go forward but for the header
  of a table**.
-/

namespace DailyReport.TextParser

open Lib

/-- The characters of a text at a range. -/
def quoted (source : Text) (r : SourceRange) : Text := (source.drop r.start).take (r.stop - r.start)

/-- All of the later ranges stand behind the earlier ones. -/
def Behind (earlier later : List SourceRange) : Prop :=
  ∀ r ∈ earlier, ∀ q ∈ later, r.stop ≤ q.start

/-- Some ranges, none of them empty, go forward through the characters of a text. -/
structure Forward (source : Text) (ranges : List SourceRange) : Prop where
  chars : ∀ r ∈ ranges, r.unit = .textChar ∧ r.start < r.stop ∧ r.stop ≤ source.length
  ordered : ranges.Pairwise fun r q => r.stop ≤ q.start

/-- How the ranges of one unit follow those of another one. -/
inductive Follows : ContentUnitKind × List SourceRange → ContentUnitKind × List SourceRange → Prop
  | behind {kind kind' : ContentUnitKind} {earlier later : List SourceRange}
    (h : Behind earlier later) : Follows (kind, earlier) (kind', later)
  /-- Two groups of one table begin with its header and its separator. -/
  | sameTable {header separator : SourceRange} {earlier later : List SourceRange}
    (hearlier : earlier ≠ []) (hlater : later ≠ []) (h : Behind earlier later) :
    Follows (.tableRow, header :: separator :: earlier) (.tableRow, header :: separator :: later)

/-! ### The pieces -/

/-- A piece is empty, or it is the text at its one range. -/
inductive Quotes (source : Text) : TextPiece → Prop
  | empty : Quotes source ⟨[], []⟩
  | range {r : SourceRange} (hunit : r.unit = .textChar) (horder : r.start < r.stop)
    (hstop : r.stop ≤ source.length) (htrim : trim (quoted source r) = quoted source r) :
    Quotes source ⟨quoted source r, [r]⟩

/-- The segments are the text, up to a last one that is cut. -/
theorem flatten_segmentsFrom (complete tableLine : Bool) (current text : Text) :
    (segmentsFrom complete tableLine current text).flatten <+: current ++ text := by
  induction text generalizing tableLine current with
  | nil =>
    unfold segmentsFrom
    split_ifs
    · simp
    · exact List.nil_prefix
  | cons c rest ih =>
    unfold segmentsFrom
    split_ifs
    · rw [List.flatten_cons, List.append_cons current c rest, List.prefix_append_right_inj]
      exact ih _ []
    · rw [List.append_cons current c rest]
      exact ih _ _

/-- A trimmed segment stands behind its leading white space. -/
theorem trim_eq_take (t : Text) :
    trim t = (t.drop (t.takeWhile isWhitespace).length).take (trim t).length := by
  have hdrop : t.drop (t.takeWhile isWhitespace).length = trimStart t := by
    conv_lhs =>
      arg 2
      rw [← List.takeWhile_append_dropWhile (p := isWhitespace) (l := t)]
    rw [List.drop_left]
    rfl
  rw [hdrop, ← List.prefix_iff_eq_take]
  exact List.rdropWhile_prefix ..

variable {source : Text}

/-- The characters of a segment without the white space around it. -/
theorem quoted_segment {start : ℕ} {text rest : Text} (h : text ++ rest <+: source.drop start)
    (hne : trim text ≠ []) {r : SourceRange}
    (hstart : r.start = start + (text.takeWhile isWhitespace).length)
    (hstop : r.stop = r.start + (trim text).length) :
    quoted source r = trim text ∧ r.stop ≤ start + text.length ∧
      start + text.length ≤ source.length := by
  obtain ⟨later, hlater⟩ := h
  have htrim := trim_eq_take text
  have hlength := congrArg List.length htrim
  rw [List.length_take, List.length_drop] at hlength
  have hpos := List.length_pos_iff.2 hne
  have hinside : (text.takeWhile isWhitespace).length + (trim text).length ≤ text.length := by omega
  have hsource := congrArg List.length hlater
  rw [List.length_append, List.length_append, List.length_drop] at hsource
  refine ⟨?_, by omega, by omega⟩
  have hdrop : source.drop r.start =
      text.drop (text.takeWhile isWhitespace).length ++ (rest ++ later) := by
    rw [hstart, ← List.drop_drop, ← hlater, List.append_assoc,
      List.drop_append_of_le_length (by omega)]
  rw [quoted, hdrop, hstop, Nat.add_sub_cancel_left,
    List.take_append_of_le_length (by rw [List.length_drop]; omega), ← htrim]

/-- **The pieces of some segments quote the file from `start` on, one behind the other.** -/
theorem textPieces_quotes {start : ℕ} {segments : List Text}
    (h : segments.flatten <+: source.drop start) :
    (∀ piece ∈ textPieces false start segments, Quotes source piece) ∧
      ((textPieces false start segments).flatMap TextPiece.ranges).Pairwise
        (fun r q => r.stop ≤ q.start) ∧
      ∀ r ∈ (textPieces false start segments).flatMap TextPiece.ranges, start ≤ r.start := by
  induction segments generalizing start with
  | nil => exact ⟨by simp [textPieces], by simp [textPieces], by simp [textPieces]⟩
  | cons text segments ih =>
    rw [List.flatten_cons] at h
    have hnext : segments.flatten <+: source.drop (start + text.length) := by
      obtain ⟨later, hlater⟩ := h
      refine ⟨later, ?_⟩
      rw [← List.drop_drop, ← hlater, List.append_assoc, List.drop_left]
    obtain ⟨hquotes, hordered, hfrom⟩ := ih hnext
    rw [textPieces]
    by_cases hempty : trim text = []
    · -- white space
      simp only [hempty, ne_eq, not_true_eq_false, and_false, if_false, List.flatMap_cons,
        List.nil_append]
      refine ⟨List.forall_mem_cons.2 ⟨.empty, hquotes⟩, hordered, fun r hr => ?_⟩
      exact (Nat.le_add_right _ _).trans (hfrom r hr)
    · obtain ⟨r, hr⟩ : ∃ r : SourceRange, r = ⟨.textChar,
          start + (text.takeWhile isWhitespace).length,
          start + (text.takeWhile isWhitespace).length + countChars (trim text), none, none,
          none⟩ := ⟨_, rfl⟩
      have hunit : r.unit = .textChar := by rw [hr]
      have hrstart : r.start = start + (text.takeWhile isWhitespace).length := by rw [hr]
      have hrstop : r.stop = r.start + (trim text).length := by rw [hr]; rfl
      obtain ⟨hquoted, hstop, hsource⟩ := quoted_segment h hempty hrstart hrstop
      have hpos := List.length_pos_iff.2 hempty
      have hshown : (!false) = true ∧ trim text ≠ [] := ⟨rfl, hempty⟩
      rw [if_pos hshown, ← hr, ← hquoted, List.flatMap_cons, List.singleton_append]
      refine ⟨List.forall_mem_cons.2 ⟨?_, hquotes⟩, List.pairwise_cons.2 ⟨?_, hordered⟩,
        List.forall_mem_cons.2 ⟨by omega, ?_⟩⟩
      · exact .range hunit (by omega) (by omega) (by rw [hquoted, trim_trim])
      · exact fun q hq => hstop.trans (hfrom q hq)
      · exact fun q hq => (Nat.le_add_right _ _).trans (hfrom q hq)

/-! ### The units that are pushed -/

/-- A unit without ranges, or one that is the text at its ranges, line by line. -/
structure QuotedPush (source : Text) (p : Push) : Prop where
  text : p.ranges ≠ [] → p.text = joinWith ['\n'] (p.ranges.map (quoted source))
  trimmed : p.ranges ≠ [] → trim p.text = p.text
  forward : Forward source p.ranges

theorem Quotes.chars {piece : TextPiece} (h : Quotes source piece) :
    ∀ r ∈ piece.ranges, r.unit = .textChar ∧ r.start < r.stop ∧ r.stop ≤ source.length := by
  cases h with
  | empty => simp
  | range hunit horder hstop htrim => simpa using ⟨hunit, horder, hstop⟩

theorem Quotes.of_ne_nil {piece : TextPiece} (h : Quotes source piece) (hne : piece.text ≠ []) :
    ∃ r, piece.ranges = [r] ∧ quoted source r = piece.text := by
  cases h with
  | empty => exact absurd rfl hne
  | range hunit horder hstop htrim => exact ⟨_, rfl, rfl⟩

theorem Quotes.textPush {piece : TextPiece} (h : Quotes source piece) :
    QuotedPush source (textPush piece) := by
  have hchars := h.chars
  cases h with
  | empty => exact ⟨by simp [TextParser.textPush], by simp [TextParser.textPush], hchars, .nil⟩
  | range hunit horder hstop htrim =>
    exact ⟨fun _ => (joinWith_singleton _ _).symm, fun _ => htrim, hchars, List.pairwise_singleton ..⟩

/-- The texts of some lines are the text at their ranges. -/
theorem map_quoted {pieces : List TextPiece} (h : ∀ p ∈ pieces, Quotes source p ∧ p.text ≠ []) :
    (pieces.flatMap TextPiece.ranges).map (quoted source) = pieces.map TextPiece.text := by
  induction pieces with
  | nil => rfl
  | cons piece pieces ih =>
    obtain ⟨hpiece, hpieces⟩ := List.forall_mem_cons.1 h
    obtain ⟨r, hranges, hquoted⟩ := hpiece.1.of_ne_nil hpiece.2
    rw [List.flatMap_cons, hranges, List.map_cons, List.map_append, ih hpieces, List.map_singleton,
      hquoted, List.singleton_append]

/-- The rows of the groups are the rows of the table, in their order. -/
theorem flatten_rowGroups (headerChars size : ℕ) (group rows : List TextPiece) :
    (rowGroups headerChars size group rows).flatten = group ++ rows := by
  induction rows generalizing size group with
  | nil =>
    unfold rowGroups
    split_ifs with hnil <;> simp [hnil]
  | cons row rows ih =>
    unfold rowGroups
    dsimp only
    split_ifs
    · rw [List.flatten_cons, ih, List.singleton_append]
    · rw [ih, List.append_assoc, List.singleton_append]

theorem rowGroups_ne_nil {headerChars size : ℕ} {group rows g : List TextPiece}
    (h : g ∈ rowGroups headerChars size group rows) : g ≠ [] := by
  induction rows generalizing size group with
  | nil =>
    unfold rowGroups at h
    split_ifs at h with hnil
    · cases h
    · rwa [List.mem_singleton.1 h]
  | cons row rows ih =>
    unfold rowGroups at h
    dsimp only at h
    split_ifs at h with hfull
    · rcases List.mem_cons.1 h with rfl | h
      · exact hfull.1
      · exact ih h
    · exact ih h

/-- A line of a table. -/
def BarLine (source : Text) (piece : TextPiece) : Prop :=
  Quotes source piece ∧ piece.text.head? = some '|' ∧ piece.text.getLast? = some '|'

theorem BarLine.ne_nil {piece : TextPiece} (h : BarLine source piece) : piece.text ≠ [] := by
  intro hnil
  have hhead := h.2.1
  rw [hnil] at hhead
  cases hhead

theorem BarLine.exists_range {piece : TextPiece} (h : BarLine source piece) :
    ∃ r, piece.ranges = [r] := by
  obtain ⟨r, hranges, -⟩ := h.1.of_ne_nil h.ne_nil
  exact ⟨r, hranges⟩

section

variable {header separator : TextPiece} {rows : List TextPiece}

/-- A group quotes its lines. -/
theorem quotedPush_tablePush {group : List TextPiece} (hgroup : group ≠ [])
    (hlines : ∀ p ∈ header :: separator :: group, BarLine source p)
    (hordered : ((header :: separator :: group).flatMap TextPiece.ranges).Pairwise
      fun r q => r.stop ≤ q.start) : QuotedPush source (tablePush header separator group) := by
  have htexts := map_quoted fun p hp => ⟨(hlines p hp).1, (hlines p hp).ne_nil⟩
  refine ⟨fun _ => ?_, fun _ => ?_, ⟨fun r hr => ?_, hordered⟩⟩
  · unfold tablePush
    dsimp only
    rw [htexts]
  · -- the lines begin and end with a bar
    obtain ⟨front, last, rfl⟩ := (group.eq_nil_or_concat').resolve_left hgroup
    have hlast := (hlines last (by simp)).2.2
    have hne := (hlines last (by simp)).ne_nil
    obtain ⟨rest, hrest⟩ := List.head?_eq_some_iff.1 (hlines header (by simp)).2.1
    have hhead : (tablePush header separator (front ++ [last])).text.head? = some '|' := by
      unfold tablePush
      dsimp only
      rw [List.map_cons, joinWith_cons_eq, hrest]
      rfl
    have hend : (tablePush header separator (front ++ [last])).text.getLast? = some '|' := by
      unfold tablePush
      dsimp only
      rw [← List.cons_append, ← List.cons_append, List.map_append, List.map_singleton,
        getLast?_joinWith_concat _ _ _ hne, hlast]
    exact trim_eq_self hhead hend (by decide) (by decide)
  · obtain ⟨p, hp, hmem⟩ := List.mem_flatMap.1 hr
    exact (hlines p hp).1.chars r hmem

/-- **The groups of a table quote it, and follow one another.** -/
theorem tablePushes_quotes (hlines : ∀ p ∈ header :: separator :: rows, BarLine source p)
    (hordered : ((header :: separator :: rows).flatMap TextPiece.ranges).Pairwise
      fun r q => r.stop ≤ q.start) :
    (∀ p ∈ tablePushes header separator rows, QuotedPush source p) ∧
      (tablePushes header separator rows).Pairwise
        fun p q => Follows (p.kind, p.ranges) (q.kind, q.ranges) := by
  unfold tablePushes
  dsimp only
  generalize countChars header.text + 1 + (countChars separator.text + 1) = headerChars
  have hflat := flatten_rowGroups headerChars headerChars [] rows
  rw [List.nil_append] at hflat
  have hne : ∀ g ∈ rowGroups headerChars headerChars [] rows, g ≠ [] := fun g => rowGroups_ne_nil
  generalize rowGroups headerChars headerChars [] rows = groups at hflat hne
  have hsub : ∀ g ∈ groups, g.Sublist rows := fun g hg => hflat ▸ List.sublist_flatten_of_mem hg
  have hmem : ∀ g ∈ groups, ∀ p ∈ header :: separator :: g, BarLine source p := fun g hg p hp =>
    hlines p ((((hsub g hg).cons_cons _).cons_cons _).subset hp)
  constructor
  · intro p hp
    obtain ⟨g, hg, rfl⟩ := List.mem_map.1 hp
    exact quotedPush_tablePush (hne g hg) (hmem g hg)
      (hordered.sublist ((((hsub g hg).cons_cons _).cons_cons _).flatMap _))
  · -- the rows of the groups go forward
    have hgroups : rows.flatMap TextPiece.ranges =
        groups.flatMap fun g => g.flatMap TextPiece.ranges := by
      rw [← hflat, ← List.flatMap_id, List.flatMap_assoc]
      rfl
    rw [List.flatMap_cons, List.flatMap_cons, ← List.append_assoc, List.pairwise_append, hgroups,
      List.pairwise_flatMap] at hordered
    rw [List.pairwise_map]
    obtain ⟨h, hh⟩ := (hlines header (by simp)).exists_range
    obtain ⟨s, hs⟩ := (hlines separator (by simp)).exists_range
    have hsome : ∀ g ∈ groups, g.flatMap TextPiece.ranges ≠ [] := by
      intro g hg hnil
      obtain ⟨p, hp⟩ := List.exists_mem_of_ne_nil g (hne g hg)
      obtain ⟨r, hr⟩ := (hmem g hg p (by simp [hp])).exists_range
      have hnone := List.flatMap_eq_nil_iff.1 hnil p hp
      rw [hr] at hnone
      cases hnone
    refine hordered.2.1.2.imp_of_mem fun {g g'} hg hg' hbehind => ?_
    simp only [tablePush, List.flatMap_cons, hh, hs, List.singleton_append]
    exact .sameTable (hsome g hg) (hsome g' hg') hbehind

end

theorem barLine_of_isTableLine {piece : TextPiece} (hquotes : Quotes source piece)
    (h : isTableLine piece = true) : BarLine source piece := by
  unfold isTableLine at h
  simpa [BarLine, hquotes] using h

theorem barLine_of_markdownSeparator {piece : TextPiece} (hquotes : Quotes source piece)
    (h : markdownSeparator piece.text = true) : BarLine source piece := by
  unfold markdownSeparator at h
  rw [Bool.and_eq_true] at h
  simpa [BarLine, hquotes] using h.1

/-- **The units that are pushed of some pieces quote the file, and follow one another.** -/
theorem textPushes_quotes {skip : ℕ} {pieces : List TextPiece}
    (hquotes : ∀ piece ∈ pieces, Quotes source piece)
    (hordered : (pieces.flatMap TextPiece.ranges).Pairwise fun r q => r.stop ≤ q.start) :
    (∀ p ∈ textPushes skip pieces, QuotedPush source p) ∧
      (textPushes skip pieces).Pairwise
        fun p q => Follows (p.kind, p.ranges) (q.kind, q.ranges) := by
  induction pieces generalizing skip with
  | nil => exact ⟨by simp [textPushes], by simp [textPushes]⟩
  | cons piece pieces ih =>
    have hlater {skip : ℕ} := @ih skip (fun p hp => hquotes p (List.mem_cons_of_mem _ hp))
      (hordered.sublist (by rw [List.flatMap_cons]; exact List.sublist_append_right _ _))
    cases skip with
    | succ skip => exact hlater
    | zero =>
      unfold textPushes
      split
      next separator row rows hseparator hrows =>
        obtain ⟨hheader, hseparates, hlines, hpieces⟩ := tableRows_eq_cons hseparator hrows
        generalize hrest : pieces.drop (1 + (row :: rows).length) = rest at hpieces
        have hsplit : piece :: pieces = (piece :: separator :: row :: rows) ++ rest := by
          rw [hpieces]
          rfl
        rw [hsplit, List.flatMap_append, List.pairwise_append] at hordered
        rw [hsplit] at hquotes
        have htable : ∀ p ∈ piece :: separator :: row :: rows, BarLine source p := by
          intro p hp
          have hquote := hquotes p (List.mem_append_left _ hp)
          rcases List.mem_cons.1 hp with rfl | hp
          · exact barLine_of_isTableLine hquote hheader
          rcases List.mem_cons.1 hp with rfl | hp
          · exact barLine_of_markdownSeparator hquote hseparates
          · exact barLine_of_isTableLine hquote (hlines p hp)
        obtain ⟨hgroups, hfollow⟩ := tablePushes_quotes htable hordered.1
        refine ⟨fun p hp => (List.mem_append.1 hp).elim (hgroups p) (hlater.1 p),
          List.pairwise_append.2 ⟨hfollow, hlater.2, fun p hp q hq => .behind fun r hr t ht => ?_⟩⟩
        -- what is pushed behind the table has the ranges of the pieces behind it
        have hleft : r ∈ (piece :: separator :: row :: rows).flatMap TextPiece.ranges := by
          obtain ⟨g, hg, rfl⟩ := List.mem_map.1 hp
          refine List.Sublist.subset (List.Sublist.flatMap ?_ _) hr
          have hsub := List.sublist_flatten_of_mem hg
          rw [flatten_rowGroups, List.nil_append] at hsub
          exact (hsub.cons_cons _).cons_cons _
        obtain ⟨u, hu, htu⟩ := mem_textPushes hq t ht
        rw [hrest] at hu
        exact hordered.2.2 r hleft t (List.mem_flatMap.2 ⟨u, hu, htu⟩)
      next =>
        rw [List.flatMap_cons, List.pairwise_append] at hordered
        refine ⟨List.forall_mem_cons.2 ⟨(hquotes piece List.mem_cons_self).textPush, hlater.1⟩,
          List.pairwise_cons.2 ⟨fun q hq => .behind fun r hr t ht => ?_, hlater.2⟩⟩
        obtain ⟨u, hu, htu⟩ := mem_textPushes hq t ht
        exact hordered.2.2 r hr t (List.mem_flatMap.2 ⟨u, hu, htu⟩)

/-! ### The units of a text -/

/-- Whatever has been read, the units are those of some of the pushes, in their order. -/
theorem units_auditedText (raw : RawExcerpt) (maxChars : ℕ) (tail : Bool)
    (warning : Option LightTextWarning) : ∃ kept : List Push,
      kept.Sublist ((textHeading raw tail warning :: (textBody raw maxChars tail).1).map
        Push.trimmed) ∧
      (auditedText raw maxChars tail warning).content = textOf kept ∧
      (auditedText raw maxChars tail warning).audit.contentUnits = some (unitsFrom 0 0 kept) := by
  have hbuilt := (built_new maxChars (lit "text")).noteAll (byteRanges raw)
  have hfinish :=
    (hbuilt.pushAll (textHeading raw tail warning :: (textBody raw maxChars tail).1)).finish
  refine ⟨keptOf (takenOf maxChars (noteAll (lit "text") [] (byteRanges raw) (some []))
    (lit "text") (textHeading raw tail warning :: (textBody raw maxChars tail).1)),
    ((keptOf_sublist _).trans (takenOf_sublist ..)).trans List.filter_sublist, ?_⟩
  unfold auditedText
  dsimp only
  unfold finishContent readBuilder
  rw [hfinish]
  exact ⟨rfl, rfl⟩

/-- **The units of every text quote it, line by line.  The ranges of each unit go forward, and those
of a later unit stand behind those of an earlier one, except that the groups of rows of one table
all begin with the ranges of its header and its separator.** -/
theorem units_quote (raw : RawExcerpt) (maxChars : ℕ) (tail : Bool)
    (warning : Option LightTextWarning) :
    (∀ unit ∈ (auditedText raw maxChars tail warning).audit.contentUnits.getD [],
      Forward raw.text unit.ranges ∧ (unit.ranges ≠ [] →
        Excerpts.unitText (auditedText raw maxChars tail warning).content unit =
          joinWith ['\n'] (unit.ranges.map (quoted raw.text)))) ∧
      ((auditedText raw maxChars tail warning).audit.contentUnits.getD []).Pairwise
        fun u v => Follows (u.kind, u.ranges) (v.kind, v.ranges) := by
  obtain ⟨kept, hkept, hcontent, hunits⟩ := units_auditedText raw maxChars tail warning
  have hbody : (∀ p ∈ (textBody raw maxChars tail).1, QuotedPush raw.text p) ∧
      (textBody raw maxChars tail).1.Pairwise
        fun p q => Follows (p.kind, p.ranges) (q.kind, q.ranges) := by
    cases tail with
    | false =>
      obtain ⟨hquotes, hordered, -⟩ := @textPieces_quotes raw.text 0
        (segmentsFrom (!raw.truncated || false) (startsTable raw.text) [] raw.text)
        (flatten_segmentsFrom _ _ [] raw.text)
      exact textPushes_quotes hquotes hordered
    | true =>
      have hnone : ∀ p ∈ (textBody raw maxChars true).1, p.ranges = [] := fun p hp =>
        (validRange_textBody hp).2 rfl
      refine ⟨fun p hp => ?_, List.pairwise_of_forall_mem_list fun p hp q hq => .behind ?_⟩
      · exact ⟨fun hne => absurd (hnone p hp) hne, fun hne => absurd (hnone p hp) hne,
          by rw [hnone p hp]; exact ⟨by simp, .nil⟩⟩
      · rw [hnone p hp]
        exact fun r hr => absurd hr List.not_mem_nil
  have hheading : (textHeading raw tail warning).ranges = [] := rfl
  have hpushes : ∀ p ∈ textHeading raw tail warning :: (textBody raw maxChars tail).1,
      QuotedPush raw.text p :=
    List.forall_mem_cons.2 ⟨⟨fun hne => absurd hheading hne, fun hne => absurd hheading hne,
      by rw [hheading]; exact ⟨by simp, .nil⟩⟩, hbody.1⟩
  have hfollow : (textHeading raw tail warning :: (textBody raw maxChars tail).1).Pairwise
      fun p q => Follows (p.kind, p.ranges) (q.kind, q.ranges) :=
    List.pairwise_cons.2 ⟨fun q _ => .behind (by simp [Behind, hheading]), hbody.2⟩
  rw [hunits, Option.getD_some, hcontent]
  have hread : (unitsFrom 0 0 kept).map (readUnit (textOf kept)) = kept := map_readUnit 0 [] kept
  constructor
  · intro unit hunit
    have hmem := List.mem_map_of_mem (f := readUnit (textOf kept)) hunit
    rw [hread] at hmem
    obtain ⟨q, hq, htrimmed⟩ := List.mem_map.1 (hkept.subset hmem)
    have hquoted := hpushes q hq
    have hranges : q.ranges = unit.ranges := congrArg Push.ranges htrimmed
    have htext : trim q.text = Excerpts.unitText (textOf kept) unit := congrArg Push.text htrimmed
    rw [← hranges, ← htext]
    exact ⟨hquoted.forward, fun hne => (hquoted.trimmed hne).trans (hquoted.text hne)⟩
  · have hpairs : kept.Pairwise fun p q => Follows (p.kind, p.ranges) (q.kind, q.ranges) := by
      refine List.Pairwise.sublist hkept ?_
      rw [List.pairwise_map]
      exact hfollow
    rw [← hread, List.pairwise_map] at hpairs
    exact hpairs

/-! ### A table of two groups -/

/-- The rows that do not fit into a group begin the next one. -/
theorem rowGroups_barPieces_full {headerChars size start n : ℕ} {group : List TextPiece}
    (hgroup : group ≠ []) (hsize : size + 2 * n ≤ 512) (hfull : 512 < size + 2 * n + 2) :
    rowGroups headerChars size group (barPieces start (n + 1)) =
      [group ++ barPieces start n, [linePiece ['|'] (start + 2 * n)]] := by
  have hcost (start : ℕ) : countChars (linePiece ['|'] start).text + 1 = 2 := rfl
  induction n generalizing size start group with
  | zero =>
    have hone : barPieces start (0 + 1) = [linePiece ['|'] start] := rfl
    have hfull' : group ≠ [] ∧ size + 2 > 512 := ⟨hgroup, by omega⟩
    rw [hone, rowGroups, hcost, if_pos hfull']
    simp [barPieces, rowGroups]
  | succ n ih =>
    have hshort : ¬ (group ≠ [] ∧ size + 2 > 512) := by omega
    rw [barPieces, rowGroups, hcost, if_neg hshort, ih (by simp) (by omega) (by omega),
      List.append_assoc, show start + 2 + 2 * n = start + 2 * (n + 1) by omega]
    rfl

/-- A row behind `n` others, with the header of its table. -/
def lastPush (n : ℕ) : Push :=
  tablePush (linePiece ['|'] 0) (linePiece ['|', '-', '-', '-', '|'] 2)
    [linePiece ['|'] (8 + 2 * n)]

section

variable {n : ℕ}

/-- A table with one row too many is pushed in two groups. -/
theorem textBody_barTable_long (hsize : 8 + 2 * (n + 1) ≤ 512) (hfull : 512 < 8 + 2 * (n + 1) + 2) :
    (textBody (asciiWindow (barTable (n + 2))) 10000 false).1 =
      [barPush (n + 1), lastPush (n + 1)] := by
  rw [textBody_barTable, rowGroups_barPieces_succ,
    rowGroups_barPieces_full (by simp) (by omega) (by omega),
    show 8 + 2 + 2 * n = 8 + 2 * (n + 1) by omega]
  rfl

theorem textKept_long (hsize : 8 + 2 * (n + 1) ≤ 512) (hfull : 512 < 8 + 2 * (n + 1) + 2) :
    textKept (asciiWindow (barTable (n + 2))) 10000 false none =
      (textHeading (asciiWindow []) false none).trimmed ::
        [(barPush (n + 1)).trimmed, (lastPush (n + 1)).trimmed] := by
  have hlength := length_barPush (n + 1)
  have htrim := length_trim_le (barPush (n + 1)).text
  have hlast : (trim (lastPush (n + 1)).text).length = 9 ∧ trim (lastPush (n + 1)).text ≠ [] := by
    have htext : (lastPush (n + 1)).text = ['|', '\n', '|', '-', '-', '-', '|', '\n', '|'] := rfl
    rw [htext]
    decide
  refine textKept_tables (by rw [length_barTable]; unfold u64Max; omega)
    (textBody_barTable_long hsize hfull) (by simp) ?_ ⟨?_, ?_, ?_, ?_⟩ (by simp)
  · simpa using ⟨⟨trim_barPush (n + 1), rfl⟩, hlast.2, rfl⟩
  · change (trim (barPush (n + 1)).text).length + 1 +
      ((trim (lastPush (n + 1)).text).length + 1 + 0) ≤ 9901
    omega
  · simp
  · have hbig : 8 + 2 * (n + 1) + 1 ≤ u64Max := by
      unfold u64Max
      omega
    have hplain : ∀ r ∈ (lastPush (n + 1)).ranges, PlainRange r := by
      intro r hr
      change r ∈ [_, _, _] at hr
      simp only [List.mem_cons, List.not_mem_nil, or_false] at hr
      rcases hr with rfl | rfl | rfl
      · exact ⟨by decide, by decide, Or.inl rfl, rfl, rfl⟩
      · exact ⟨by decide, by decide, Or.inl rfl, rfl, rfl⟩
      · exact ⟨by dsimp only; omega, hbig, Or.inl rfl, rfl, rfl⟩
    intro p hp
    simp only [List.map_cons, List.map_nil, List.mem_cons, List.not_mem_nil, or_false] at hp
    rcases hp with rfl | rfl
    · exact plain_barPush (by omega)
    · exact hplain
  · have hranges := ranges_barPush (n + 1)
    change (barPush (n + 1)).ranges.length + (3 + 0) ≤ 512
    omega

end

/-- **The ranges of successive units do not go forward**: the second group of a long table begins
with the header of the first one. -/
theorem header_repeated : ¬ ∀ (raw : RawExcerpt) (maxChars : ℕ) (tail : Bool)
    (warning : Option LightTextWarning),
    (∀ unit ∈ (auditedText raw maxChars tail warning).audit.contentUnits.getD [],
      Forward raw.text unit.ranges ∧ (unit.ranges ≠ [] →
        Excerpts.unitText (auditedText raw maxChars tail warning).content unit =
          joinWith ['\n'] (unit.ranges.map (quoted raw.text)))) ∧
      ((auditedText raw maxChars tail warning).audit.contentUnits.getD []).Pairwise
        fun u v => Behind u.ranges v.ranges := by
  intro h
  obtain ⟨n, hsize, hfull⟩ : ∃ n, 8 + 2 * (n + 1) ≤ 512 ∧ 512 < 8 + 2 * (n + 1) + 2 :=
    ⟨251, by omega, by omega⟩
  have hwindow : GoodExcerpt (asciiWindow (barTable (n + 2))) :=
    goodExcerpt_asciiWindow (by rw [length_barTable]; unfold u64Max; omega)
  have hpairs := (h (asciiWindow (barTable (n + 2))) 10000 false none).2
  have hunits : ∀ (reads : Option (List SourceRange)) (format encoding : Text) (ps : List Push),
      (sealedAudit reads format encoding ps).contentUnits = some (unitsFrom 0 0 ps) :=
    fun _ _ _ _ => rfl
  rw [(auditedText_eq hwindow 10000 false none).2, hunits, Option.getD_some,
    textKept_long hsize hfull] at hpairs
  simp only [unitsFrom, List.pairwise_cons, List.mem_singleton, forall_eq] at hpairs
  -- the header of the table is in both
  have hheader : ∀ group, ⟨.textChar, 0, 1, none, none, none⟩ ∈ (tablePush (linePiece ['|'] 0)
      (linePiece ['|', '-', '-', '-', '|'] 2) group).trimmed.ranges := fun _ => List.mem_cons_self
  exact absurd (hpairs.2.1 _ (hheader _) _ (hheader _)) (by decide)

end DailyReport.TextParser
