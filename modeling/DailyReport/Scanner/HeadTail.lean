import DailyReport.Scanner.RenderBudget

/-!
# What a shortened body keeps

A body that is too long is shortened to its ends, with a marker for what has been left out between
them.  A cut moves to the next line break of its side.

* `shortened_verbatim` : **the ends are verbatim and the marker counts what is missing**;
* `keeps_end_iff` : **the end is kept unless it is one line with its line break**: the cut in
  front of the tail moves behind the first line break, also if this is the last character.
-/

namespace DailyReport

open Lib

/-- The body is the content with one piece replaced by the marker for its length. -/
def Shortened (pre content body : Text) : Prop :=
  ∃ head removed tail, content = head ++ removed ++ tail ∧
    body = head ++ omittedMarker pre removed.length ++ tail

theorem shortened_of_cuts {content : Text} {a b : ℕ} (pre : Text) (hab : a ≤ b)
    (hb : b ≤ content.length) :
    Shortened pre content (content.take a ++ omittedMarker pre (b - a) ++ content.drop b) := by
  have hsplit : content = content.take a ++ (content.take b).drop a ++ content.drop b := by
    have htake : content.take a = (content.take b).take a := by
      rw [List.take_take, Nat.min_eq_left hab]
    rw [htake, List.take_append_drop, List.take_append_drop]
  refine ⟨_, _, _, hsplit, ?_⟩
  rw [List.length_drop, List.length_take, Nat.min_eq_left hb]

/-! ### The cuts -/

/-- Characters of the two ends before the cuts move. -/
def headBudget (limit : ℕ) : ℕ := max (limit - omittedMarkerReserve) 1 * headRatioPerMille / 1000

def tailBudget (limit : ℕ) : ℕ := max (limit - omittedMarkerReserve) 1 - headBudget limit

theorem budgets {limit : ℕ} (hlimit : omittedMarkerReserve ≤ limit) :
    0 < tailBudget limit ∧ headBudget limit + tailBudget limit ≤ limit := by
  unfold tailBudget headBudget headRatioPerMille omittedMarkerReserve at *
  omega

/-- What lies behind the first line break of some characters, or all of them without one. -/
theorem drop_newlineBoundaryAtOrAfter (content : Text) (position : ℕ) :
    content.drop (newlineBoundaryAtOrAfter content position) =
      match (content.drop position).findIdx? (· == '\n') with
      | some index => (content.drop position).drop (index + 1)
      | none => content.drop position := by
  unfold newlineBoundaryAtOrAfter
  cases (content.drop position).findIdx? (· == '\n') with
  | none => rfl
  | some index =>
    dsimp only
    rw [List.drop_drop, Nat.add_assoc]

theorem newlineBoundaryAtOrAfter_le {content : Text} {position : ℕ}
    (h : position ≤ content.length) :
    newlineBoundaryAtOrAfter content position ≤ content.length := by
  unfold newlineBoundaryAtOrAfter
  cases hindex : (content.drop position).findIdx? (· == '\n') with
  | none => exact h
  | some index =>
    obtain ⟨hlt, -⟩ := List.findIdx?_eq_some_iff_getElem.1 hindex
    rw [List.length_drop] at hlt
    dsimp only
    omega

/-- Nothing lies behind the cut exactly when the characters are a line with its line break. -/
theorem drop_newlineBoundaryAtOrAfter_eq_nil {content : Text} {position : ℕ}
    (h : position < content.length) :
    content.drop (newlineBoundaryAtOrAfter content position) = [] ↔
      ∃ line, '\n' ∉ line ∧ content.drop position = line ++ ['\n'] := by
  have hregion : content.drop position ≠ [] := by
    rw [Ne, List.drop_eq_nil_iff]
    omega
  rw [drop_newlineBoundaryAtOrAfter]
  generalize content.drop position = region at hregion
  cases hindex : region.findIdx? (· == '\n') with
  | none =>
    refine ⟨fun hnil => absurd hnil hregion, ?_⟩
    rintro ⟨line, -, rfl⟩
    have hnone := List.findIdx?_eq_none_iff.1 hindex '\n' (by simp)
    exact absurd hnone (by decide)
  | some index =>
    obtain ⟨hlt, hnewline, hbefore⟩ := List.findIdx?_eq_some_iff_getElem.1 hindex
    have hsplit : region = region.take index ++ '\n' :: region.drop (index + 1) := by
      have hcons := List.drop_eq_getElem_cons hlt
      rw [beq_iff_eq.1 hnewline] at hcons
      rw [← hcons, List.take_append_drop]
    have hline : '\n' ∉ region.take index := by
      intro hmem
      obtain ⟨k, hk, hget⟩ := List.getElem_of_mem hmem
      rw [List.length_take] at hk
      rw [List.getElem_take] at hget
      exact hbefore k (by omega) (by rw [hget]; rfl)
    constructor
    · intro hnil
      refine ⟨region.take index, hline, ?_⟩
      conv_lhs => rw [hsplit, show region.drop (index + 1) = [] from hnil]
    · rintro ⟨line, hnotin, heq⟩
      -- the first line break is the last character
      have hlength : region.length = line.length + 1 := by rw [heq]; simp
      have hge : line.length ≤ index := by
        by_contra hsmall
        refine hnotin ?_
        have hget : region[index] = line.get ⟨index, by omega⟩ := by
          simp only [heq]
          exact List.getElem_append_left (by omega)
        rw [← beq_iff_eq.1 hnewline, hget]
        exact List.getElem_mem _
      exact List.drop_eq_nil_of_le (by omega)

/-! ### The ends -/

section

variable {content : Text} {limit : ℕ}

/-- The head and the tail, with the marker between them. -/
theorem takeHeadAndTail_eq (hlimit : omittedMarkerReserve ≤ limit) (hlong : limit < content.length) :
    ∃ a b, a ≤ b ∧ b ≤ content.length ∧
      b = newlineBoundaryAtOrAfter content (content.length - tailBudget limit) ∧
      takeHeadAndTail content limit =
        content.take a ++ omittedMarker (lit "中部") (b - a) ++ content.drop b := by
  obtain ⟨-, hsum⟩ := budgets hlimit
  have hbefore := newlineBoundaryAtOrBefore_le content (headBudget limit)
  have hafter := le_newlineBoundaryAtOrAfter content (content.length - tailBudget limit)
  have hwithin := @newlineBoundaryAtOrAfter_le content (content.length - tailBudget limit)
    (Nat.sub_le _ _)
  refine ⟨newlineBoundaryAtOrBefore content (headBudget limit), _, ?_, hwithin, rfl, ?_⟩
  · omega
  · have hbody : takeHeadAndTail content limit =
        content.take (newlineBoundaryAtOrBefore content (headBudget limit)) ++
          omittedMarker (lit "中部") (content.length -
            (content.take (newlineBoundaryAtOrBefore content (headBudget limit))).length -
            (content.drop (newlineBoundaryAtOrAfter content
              (content.length - tailBudget limit))).length) ++
          content.drop (newlineBoundaryAtOrAfter content (content.length - tailBudget limit)) :=
      if_neg (Nat.not_lt.2 hlimit)
    rw [hbody, List.length_take, List.length_drop]
    congr 3
    omega

/-- **A shortened body is verbatim, and its marker counts what is missing.** -/
theorem shortened_verbatim (hlimit : 64 ≤ limit) (hlong : limit < content.length)
    (hcontent : content.length ≤ u64Max) :
    (Shortened (lit "中部") content (takeHeadAndTail content limit) ∧
      (takeHeadAndTail content limit).length ≤ limit) ∧
    Shortened (lit "头部") content (takeLogTail content limit) ∧
      (takeLogTail content limit).length ≤ limit := by
  refine ⟨⟨?_, length_takeHeadAndTail_le limit hcontent⟩, ?_, length_takeLogTail_le limit hcontent⟩
  · obtain ⟨a, b, hab, hb, -, hbody⟩ := takeHeadAndTail_eq hlimit hlong
    rw [hbody]
    exact shortened_of_cuts _ hab hb
  · have hbody : takeLogTail content limit =
        omittedMarker (lit "头部") (content.length - (content.drop
          (content.length - max (limit - omittedMarkerReserve) 1)).length) ++
          content.drop (content.length - max (limit - omittedMarkerReserve) 1) :=
      if_neg (Nat.not_lt.2 hlimit)
    rw [hbody, List.length_drop, Nat.sub_sub_self (Nat.sub_le _ _)]
    exact shortened_of_cuts _ (Nat.zero_le _) (Nat.sub_le _ _)

/-- A hundred letters within seventy. -/
theorem shortened_verbatim_letters :
    (Shortened (lit "中部") (List.replicate 100 'a')
        (takeHeadAndTail (List.replicate 100 'a') 70) ∧
      (takeHeadAndTail (List.replicate 100 'a') 70).length ≤ 70) ∧
    Shortened (lit "头部") (List.replicate 100 'a') (takeLogTail (List.replicate 100 'a') 70) ∧
      (takeLogTail (List.replicate 100 'a') 70).length ≤ 70 :=
  shortened_verbatim (by decide) (by rw [List.length_replicate]; decide)
    (by rw [List.length_replicate]; decide)

/-- The body ends with characters that the content ends with. -/
def KeepsEnd (content body : Text) : Prop := ∃ tail ≠ [], tail <:+ content ∧ tail <:+ body

/-- The tail is one line with its line break. -/
def TailIsLine (content : Text) (limit : ℕ) : Prop :=
  ∃ line, '\n' ∉ line ∧ content.drop (content.length - tailBudget limit) = line ++ ['\n']

/-- Without a tail the body ends with the marker. -/
theorem not_keepsEnd_of_line (hlimit : omittedMarkerReserve ≤ limit) (hlong : limit < content.length)
    (hline : TailIsLine content limit) : ¬ KeepsEnd content (takeHeadAndTail content limit) := by
  obtain ⟨hpos, hsum⟩ := budgets hlimit
  obtain ⟨a, b, -, -, hb, hbody⟩ := takeHeadAndTail_eq hlimit hlong
  have hdrop : content.drop b = [] := by
    rw [hb, drop_newlineBoundaryAtOrAfter_eq_nil (by omega)]
    exact hline
  rw [hbody, hdrop, List.append_nil]
  rintro ⟨tail, hne, ⟨before, hcontent⟩, before', hmarker⟩
  -- the content ends with a line break, and the marker does not
  obtain ⟨line, -, hregion⟩ := hline
  have hlast : tail.getLast? = some '\n' := by
    have h : content = content.take (content.length - tailBudget limit) ++ (line ++ ['\n']) := by
      rw [← hregion, List.take_append_drop]
    rw [← List.getLast?_append_of_ne_nil before hne, hcontent, h, ← List.append_assoc,
      List.getLast?_concat]
  have hdots : tail.getLast? = some '…' := by
    rw [← List.getLast?_append_of_ne_nil before' hne, hmarker, omittedMarker, ← List.append_assoc,
      List.getLast?_append_of_ne_nil _ (by simp [lit_eq]), lit_eq]
    rfl
  rw [hlast] at hdots
  exact absurd hdots (by decide)

/-- **The end is kept unless the tail is one line with its line break.** -/
theorem keeps_end_iff (hlimit : 66 ≤ limit) (hlong : limit < content.length) :
    KeepsEnd content (takeHeadAndTail content limit) ↔ ¬ TailIsLine content limit := by
  have hreserve : omittedMarkerReserve ≤ limit := Nat.le_trans (by decide) hlimit
  refine ⟨fun hkeeps hline => not_keepsEnd_of_line hreserve hlong hline hkeeps, fun hline => ?_⟩
  obtain ⟨hpos, hsum⟩ := budgets hreserve
  obtain ⟨a, b, -, -, hb, hbody⟩ := takeHeadAndTail_eq hreserve hlong
  refine ⟨content.drop b, fun hnil => hline ?_, List.drop_suffix _ _, ?_⟩
  · rw [hb, drop_newlineBoundaryAtOrAfter_eq_nil (by omega)] at hnil
    exact hnil
  · rw [hbody]
    exact List.suffix_append _ _

end

/-- Letters with a line break at the very end. -/
def letterLine : Text := List.replicate 66 'a' ++ ['\n']

/-- **Of a long line with its line break no character of the end is kept.** -/
theorem line_loses_end : ¬ ∀ (content : Text) (limit : ℕ), 66 ≤ limit → limit < content.length →
    KeepsEnd content (takeHeadAndTail content limit) := by
  intro h
  have hlength : letterLine.length = 67 := by
    rw [letterLine, List.length_append, List.length_replicate]
    rfl
  have hlong : 66 < letterLine.length := by rw [hlength]; decide
  refine not_keepsEnd_of_line (by decide) hlong ⟨['a'], by decide, ?_⟩ (h letterLine 66 le_rfl hlong)
  rw [hlength]
  rfl

/-- Letters without a line break. -/
theorem keeps_end_iff_letters :
    KeepsEnd (List.replicate 100 'a') (takeHeadAndTail (List.replicate 100 'a') 70) ↔
      ¬ TailIsLine (List.replicate 100 'a') 70 :=
  keeps_end_iff (by decide) (by rw [List.length_replicate]; decide)

end DailyReport
