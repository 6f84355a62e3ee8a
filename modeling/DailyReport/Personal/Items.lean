import DailyReport.Personal.Selection

/-!
# The items of a personal report

An item is a statement with the sources that it cites.  `validateItems` checks the items of a report
or of a response against the sources.
-/

namespace DailyReport.Personal

open Lib Reports

def maxBodyChars : ℕ := 1500

/-- The body of historical reports. -/
def maxSummaryChars : ℕ := 600

def maxSummaryItems : ℕ := 5

def maxSummaryCharsExtended : ℕ := maxBodyChars

inductive ItemKind
  | progress
  | attention
  | nextStep
  deriving DecidableEq, Repr

def ItemKind.wireName : ItemKind → Text
  | progress => lit "progress"
  | attention => lit "attention"
  | nextStep => lit "next_step"

inductive StatementKind
  | observed
  | userStatement
  | uncertain
  | suggestion
  deriving DecidableEq, Repr

def StatementKind.wireName : StatementKind → Text
  | observed => lit "observed"
  | userStatement => lit "user_statement"
  | uncertain => lit "uncertain"
  | suggestion => lit "suggestion"

structure PersonalItem where
  title : Text
  text : Text
  kind : ItemKind
  statementKind : StatementKind
  sourceIds : List Text
  deriving DecidableEq

/-- The source with an identity. -/
def findSource (sources : List ReportSource) (id : Text) : Option ReportSource :=
  sources.reverse.find? fun source => decide (source.sourceId = id)

/-- One source that an item cites, behind those that it has cited before. -/
def checkCitation (sources : List ReportSource) (item : PersonalItem) (seen : List Text) (id : Text) :
    Except ReportError (List Text) := do
  match findSource sources id with
  | none => .error (personalInvalid "事项引用未知来源")
  | some source => do
    ensure (id ∉ seen ∧ source.usable = true) (personalInvalid "事项引用重复或不可用来源")
    ensure (¬ (item.statementKind = .observed ∧
        (source.unverified = true ∨ source.sourceKind = lit "user_statement")))
      (personalInvalid "未确认材料或用户陈述不能标为确定观察")
    .ok (id :: seen)

def checkItem (sources : List ReportSource) (item : PersonalItem) : Except ReportError Unit := do
  ensure (trim item.title ≠ [] ∧ trim item.text ≠ [] ∧ item.sourceIds ≠ [])
    (personalInvalid "事项缺少文字或来源")
  let _ ← item.sourceIds.foldlM (checkCitation sources item) []
  ensure (item.statementKind = .userStatement → userInput ∈ item.sourceIds)
    (personalInvalid "用户陈述缺少用户来源")

def validateItems (items : List PersonalItem) (sources : List ReportSource) :
    Except ReportError Unit :=
  items.forM (checkItem sources)

/-- The characters of the titles and texts. -/
def bodyChars (items : List PersonalItem) : ℕ :=
  totalCost (fun item => countChars item.title + countChars item.text) items

theorem bodyChars_sublist {items items' : List PersonalItem} (h : items'.Sublist items) :
    bodyChars items' ≤ bodyChars items :=
  totalCost_sublist h

end DailyReport.Personal
