import DiceOdds.Session

/-!
# Reports

A report on an expression shows its canonical text, one roll of it, and its
exact odds as a table.  The roll is made first, so that of a roll and odds that
both fail the roll is the fault reported.
-/

namespace DiceOdds

/-- What is reported about an expression. -/
structure Report where
  normalized : String
  rolled : Int64
  odds : Odds

/-- Reports on a text, rolling it with draws from `source`. -/
def Report.ofText {σ : Type} [Roller σ] (text : String) (source : σ) :
    Except Fault Report := do
  let session ← (Session.start text source).mapError .read
  let (result, session) := session.roll
  let rolled ← result.mapError .evaluation
  let odds ← session.calculate.1.mapError .evaluation
  return { normalized := session.normalized, rolled, odds }

def Report.alignRight (width : Nat) (text : String) : String :=
  "".pushn ' ' (width - text.length) ++ text

def Report.row (outcome frequency share : String) : String :=
  Report.alignRight 8 outcome ++ " | " ++ Report.alignRight 20 frequency ++ " | " ++
    Report.alignRight 11 share

def Report.rule : String :=
  "".pushn '-' 8 ++ "-+-" ++ "".pushn '-' 20 ++ "-+-" ++ "".pushn '-' 11

def Report.percent (share : Binary64) : String :=
  (share.scale 100).fixed 6 ++ "%"

def Report.rows (report : Report) : List String :=
  (report.odds.distribution.entries.zip report.odds.probabilities).map
    fun (entry, share) =>
      Report.row (toString entry.1.toInt) (toString entry.2)
        (Report.percent share.2)

/-- The table has a row for each outcome, in ascending order, with its frequency and its
share in all ways. -/
theorem Report.rows_eq (report : Report) :
    report.rows = report.odds.outcomes.map fun outcome =>
      Report.row (toString outcome.toInt) (toString (report.odds.frequency outcome))
        (Report.percent (report.odds.probability outcome)) := by
  have frequency : ∀ entry ∈ report.odds.distribution.entries,
      report.odds.frequency entry.1 = entry.2 := by
    intro entry member
    rw [Odds.frequency, Distribution.frequency, Distribution.mem_entries_iff.mp member]
    rfl
  have paired : (report.odds.distribution.entries.map id).zip report.odds.probabilities =
      report.odds.distribution.entries.map fun entry =>
        (entry, entry.1, .nearest entry.2 report.odds.permutations) :=
    List.zip_map'
  rw [List.map_id] at paired
  rw [Report.rows, paired, Odds.outcomes, Distribution.outcomes, List.map_map, List.map_map]
  apply List.map_congr_left
  intro entry member
  simp only [Function.comp_apply, Odds.probability, frequency entry member]

/-- The lines of a report in which the roll is shown as `roll`. -/
def Report.lines (report : Report) (roll : String) : List String :=
  ["Expression:   " ++ report.normalized,
    "Bounds:       " ++ toString report.odds.min.toInt ++ " to " ++
      toString report.odds.max.toInt,
    "Rolled:       " ++ roll,
    "Outcomes:     \x7b" ++ ", ".intercalate report.odds.outcomeTexts ++ "\x7d",
    "Permutations: " ++ toString report.odds.permutations,
    "",
    Report.row "Outcome" "Frequency" "Probability",
    Report.rule] ++ report.rows

/-- Which lines tell the bounds, the roll and the outcomes, and where the row of an
outcome stands in the table. -/
theorem Report.lines_tell (report : Report) (roll : String) :
    let lines := report.lines roll
    lines[1]? = some ("Bounds:       " ++ toString report.odds.min.toInt ++ " to " ++
      toString report.odds.max.toInt) ∧
    lines[2]? = some ("Rolled:       " ++ roll) ∧
    lines[3]? = some ("Outcomes:     \x7b" ++ ", ".intercalate report.odds.outcomeTexts ++
      "\x7d") ∧
    ∀ index outcome, report.odds.outcomes[index]? = some outcome →
      lines[index + 8]? = some (Report.row (toString outcome.toInt)
        (toString (report.odds.frequency outcome))
        (Report.percent (report.odds.probability outcome))) := by
  refine ⟨rfl, rfl, rfl, ?_⟩
  intro index outcome listed
  change report.rows[index]? = _
  rw [Report.rows_eq, List.getElem?_map, listed]
  rfl

def Report.layout (report : Report) (roll : String) : String :=
  String.join ((report.lines roll).map fun line => line ++ "\n")

def Report.text (report : Report) : String :=
  report.layout (toString report.rolled.toInt)

end DiceOdds
