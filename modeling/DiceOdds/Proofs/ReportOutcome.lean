import DiceOdds.Proofs.EvaluationFaults
import DiceOdds.Proofs.ReportLines
import DiceOdds.Proofs.RollCap

/-!
# Reports do not depend on chance

A report rolls before the odds are computed, so the draws could decide whether there
is one.  They do not.  Where the distribution is found no draw leads to a fault, and
the cap looks at how many dice are counted and not at what they show.
An expression with a distribution therefore has a report on all draws or on none, and
the roll that is printed is one of the printed outcomes.  A report that fails has
written nothing.
-/

namespace DiceOdds

variable {σ : Type}

/-- Within the limit the action counts its dice and shows one of the outcomes,
whatever the roller answers.  If its dice bring the count above the limit it is
refused. -/
structure Throwing.Settled (limit dice : Nat) (outcomes : List Int64)
    (action : Throwing σ Int64) : Prop where
  shows : ∀ tray : Tray σ, tray.counted + dice ≤ limit →
    ∃ outcome ∈ outcomes, ∃ source,
      action.run tray = (.ok outcome, ⟨tray.counted + dice, source⟩)
  refused : ∀ tray : Tray σ, tray.counted ≤ limit → limit < tray.counted + dice →
    (action.run tray).1 = .error .tooManyRolls

theorem Throwing.Settled.pure {limit : Nat} {outcomes : List Int64} {value : Int64}
    (listed : value ∈ outcomes) :
    Throwing.Settled limit 0 outcomes (pure value : Throwing σ Int64) where
  shows tray _ := ⟨value, listed, tray.source, rfl⟩
  refused _ within above := (Nat.not_lt.mpr within above).elim

/-- The dice of the left action are counted first: either they already exceed the
limit, or they leave the rest of the room to the right one. -/
theorem Throwing.Settled.combine {limit leftDice rightDice : Nat}
    {leftOutcomes rightOutcomes outcomes : List Int64}
    {left right : Throwing σ Int64} {operator : Operator}
    (leftSettled : left.Settled limit leftDice leftOutcomes)
    (rightSettled : right.Settled limit rightDice rightOutcomes)
    (joins : ∀ leftOutcome ∈ leftOutcomes, ∀ rightOutcome ∈ rightOutcomes,
      ∃ outcome ∈ outcomes, operator.apply leftOutcome rightOutcome = .ok outcome) :
    Throwing.Settled limit (leftDice + rightDice) outcomes
      (do
        let lhs ← left
        let rhs ← right
        operator.apply lhs rhs) where
  shows tray within := by
    rw [← Nat.add_assoc] at within ⊢
    obtain ⟨leftOutcome, leftMember, source, leftRan⟩ :=
      leftSettled.shows tray (Nat.le_of_add_right_le within)
    obtain ⟨rightOutcome, rightMember, later, rightRan⟩ :=
      rightSettled.shows ⟨tray.counted + leftDice, source⟩ within
    obtain ⟨outcome, member, joined⟩ :=
      joins leftOutcome leftMember rightOutcome rightMember
    refine ⟨outcome, member, later, ?_⟩
    simp only [run_bind, leftRan, rightRan, Throwing.run_lift, joined]
  refused tray within above := by
    rw [← Nat.add_assoc] at above
    by_cases fits : tray.counted + leftDice ≤ limit
    · obtain ⟨leftOutcome, _, source, leftRan⟩ := leftSettled.shows tray fits
      have refusal := rightSettled.refused ⟨tray.counted + leftDice, source⟩ fits above
      rw [run_bind, leftRan]
      exact run_bind_fst_of_error refusal
    · exact run_bind_fst_of_error
        (leftSettled.refused tray within (Nat.lt_of_not_le fits))

/-- A join that does not fail lists what the operator gives on any two outcomes. -/
theorem Distribution.exists_apply_of_convolve {cap : Cap} {operator : Operator}
    {lhs rhs joined : Distribution} (success : convolve cap operator lhs rhs = .ok joined) :
    ∀ leftOutcome ∈ lhs.outcomes, ∀ rightOutcome ∈ rhs.outcomes,
      ∃ outcome ∈ joined.outcomes,
        operator.apply leftOutcome rightOutcome = .ok outcome := by
  intro leftOutcome leftMember rightOutcome rightMember
  have uncapped := convolve_of_cap success
  obtain ⟨outcome, applied⟩ :=
    applicable_of_convolve uncapped leftOutcome leftMember rightOutcome rightMember
  have listed : outcome ∈ joined.outcomes := (mem_outcomes_convolve uncapped).mpr
    ⟨leftOutcome, leftMember, rightOutcome, rightMember, Operator.value_of_apply applied⟩
  exact ⟨outcome, listed, applied⟩

section Settling

variable [Roller σ] {cap : Cap} {limit : Nat}

/-- Dice that have a distribution fail on no draw, so only the count decides. -/
theorem Dice.throwAll_settled (countable : limit < 2 ^ 64) {dice : Dice}
    {distribution : Distribution} (success : dice.distribution cap = .ok distribution) :
    Throwing.Settled limit dice.thrown.toNat distribution.outcomes
      (dice.throwAll (some limit) : Throwing σ Int64) := by
  obtain ⟨sound, found⟩ := Dice.distribution_ok success
  have samples := Distribution.Samples.dice sound found
  constructor
  · intro tray within
    have follows := samples.follows σ tray.counted tray.source
    have answered := Roller.answers_mem_drawVectors samples.positive tray.source
    rw [List.flatMap_singleton, Dice.length_plan] at follows
    rw [Dice.run_throwAll_of_within fun _ => within]
    refine ⟨_, ?_, _, follows (Nat.lt_of_le_of_lt within countable)⟩
    rw [List.flatMap_singleton] at answered
    exact (samples.counts.outcomes _).mpr
      (List.mem_map_of_mem (by rwa [List.flatMap_singleton]))
  · intro tray _ above
    obtain ⟨counted, ran⟩ := Dice.run_throwAll_of_above sound above
    exact congrArg Prod.fst ran

theorem exactOdds_settles (cap : Cap) (countable : limit < 2 ^ 64) :
    (exactOdds cap).Related (rolling (some limit))
      fun throws attempt (action : Throwing σ Int64) =>
        ∀ distribution, attempt = .ok distribution →
          action.Settled limit (Dice.thrownInAll throws) distribution.outcomes where
  constant value distribution success := by
    cases success
    exact .pure (((Distribution.Samples.singleton value).counts.outcomes value).mpr
      (List.mem_singleton_self value))
  dice _ _ _ success := Dice.throwAll_settled countable success
  group := by
    intro throws attempt action settled distribution success
    obtain ⟨found, innerSuccess, grouped⟩ := exists_of_bind_ok success
    cases grouped
    have unchanged : action >>= (rolling (some limit)).group = action := bind_pure action
    rw [unchanged]
    exact settled distribution innerSuccess
  combine operator left right distribution success := by
    obtain ⟨lhs, leftSuccess, success⟩ := exists_of_bind_ok success
    obtain ⟨rhs, rightSuccess, success⟩ := exists_of_bind_ok success
    rw [Dice.thrownInAll_append]
    exact (left lhs leftSuccess).combine (right rhs rightSuccess)
      (Distribution.exists_apply_of_convolve success)

theorem Expression.interpret_settled (countable : limit < 2 ^ 64) {limits : Limits}
    {expression : Expression} {distribution : Distribution}
    (success : expression.distribution limits = .ok distribution) :
    Throwing.Settled limit (Dice.thrownInAll expression.throws) distribution.outcomes
      (expression.interpret (rolling (some limit)) : Throwing σ Int64) :=
  expression.interpret_related (exactOdds_settles limits.maxCombinations countable)
    distribution (Expression.interpret_of_distribution success)

variable {limits : Limits} {expression : Expression} {distribution : Distribution}

/-- Under a cap that has room for its dice, an expression with a distribution rolls
one of the outcomes. -/
theorem Expression.exists_roll (countable : limit < 2 ^ 64)
    (success : expression.distribution limits = .ok distribution)
    (fits : Dice.thrownInAll expression.throws ≤ limit) (source : σ) :
    ∃ outcome ∈ distribution.outcomes,
      (expression.roll (some limit) source).1 = .ok outcome := by
  have settled := Expression.interpret_settled (σ := σ) countable success
  obtain ⟨outcome, member, after, ran⟩ :=
    settled.shows (Tray.fresh source) (by rwa [Tray.fresh, Nat.zero_add])
  exact ⟨outcome, member, congrArg Prod.fst ran⟩

/-- Under a cap that has no room for its dice, no roll of the expression succeeds. -/
theorem Expression.roll_refused (countable : limit < 2 ^ 64)
    (success : expression.distribution limits = .ok distribution)
    (above : limit < Dice.thrownInAll expression.throws) (source : σ) :
    (expression.roll (some limit) source).1 = .error .tooManyRolls := by
  have settled := Expression.interpret_settled (σ := σ) countable success
  exact settled.refused (Tray.fresh source) (Nat.zero_le limit)
    (by rwa [Tray.fresh, Nat.zero_add])

end Settling

section Reporting

variable [Roller σ] {text : String} {expression : Expression} {distribution : Distribution}

theorem Report.ofText_of_read (read : Expression.read text = .ok expression) (source : σ) :
    Report.ofText text source = do
      let rolled ← (expression.roll (some 1000) source).1.mapError .evaluation
      let odds ← (expression.odds .standard).mapError .evaluation
      return { normalized := expression.text, rolled, odds } := by
  have started : Session.start text source =
      .ok { text, expression, limits := .standard, source, odds := none } := by
    rw [Session.start, read]
    rfl
  rw [Report.ofText, started]
  simp only [Session.calculate_fst]
  rfl

theorem Report.ofText_of_not_read {fault : ReadFault}
    (failed : Expression.read text = .error fault) (source : σ) :
    Report.ofText text source = .error (.read fault) := by
  rw [Report.ofText, Session.start, failed]
  rfl

/-- What a report holds has been read, rolled and computed. -/
theorem Report.exists_of_ofText_ok {source : σ} {report : Report}
    (success : Report.ofText text source = .ok report) :
    ∃ expression, Expression.read text = .ok expression ∧
      report.normalized = expression.text ∧
      (expression.roll (some 1000) source).1 = .ok report.rolled ∧
      expression.distribution .standard = .ok report.odds.distribution := by
  cases read : Expression.read text with
  | error fault =>
      rw [Report.ofText_of_not_read read] at success
      contradiction
  | ok expression =>
      rw [Report.ofText_of_read read] at success
      obtain ⟨rolled, rolling, success⟩ := exists_of_bind_ok success
      obtain ⟨odds, computed, success⟩ := exists_of_bind_ok success
      cases success
      exact ⟨expression, rfl, rfl, ok_of_mapError_ok rolling,
        Expression.odds_eq_ok_iff.mp (ok_of_mapError_ok computed)⟩

/-- With too many dice there is no report, whatever they show. -/
theorem Report.ofText_of_above (read : Expression.read text = .ok expression)
    (success : expression.distribution .standard = .ok distribution)
    (above : 1000 < Dice.thrownInAll expression.throws) (source : σ) :
    Report.ofText text source = .error (.evaluation .tooManyRolls) := by
  rw [Report.ofText_of_read read, Expression.roll_refused (by decide) success above]
  rfl

/-- Where the distribution is found and its dice are few enough there is a report,
whatever they show. -/
theorem Report.exists_ofText (read : Expression.read text = .ok expression)
    (success : expression.distribution .standard = .ok distribution)
    (fits : Dice.thrownInAll expression.throws ≤ 1000) (source : σ) :
    ∃ report, Report.ofText text source = .ok report := by
  obtain ⟨outcome, _, rolled⟩ := Expression.exists_roll (by decide) success fits source
  obtain ⟨_, _, odds, tabled⟩ := Expression.distribution_positive success
  have computed : expression.odds .standard = .ok odds := by
    rw [Expression.odds, success, ok_bind]
    exact tabled
  rw [Report.ofText_of_read read, rolled, computed]
  exact ⟨_, rfl⟩

/-- The roll of a report is among its outcomes, and its dice were few enough. -/
theorem Report.rolled_mem_outcomes {source : σ} {report : Report}
    (success : Report.ofText text source = .ok report) :
    report.rolled ∈ report.odds.outcomes ∧
      ∃ expression, Expression.read text = .ok expression ∧
        expression.distribution .standard = .ok report.odds.distribution ∧
        Dice.thrownInAll expression.throws ≤ 1000 := by
  obtain ⟨expression, read, _, rolled, found⟩ := Report.exists_of_ofText_ok success
  have fits : Dice.thrownInAll expression.throws ≤ 1000 := by
    by_contra above
    rw [Expression.roll_refused (by decide) found (Nat.lt_of_not_le above)] at rolled
    contradiction
  obtain ⟨outcome, member, shown⟩ := Expression.exists_roll (by decide) found fits source
  rw [rolled] at shown
  cases shown
  exact ⟨member, expression, read, found, fits⟩

/-! ## What a report writes -/

theorem Writing.run_bind {α β : Type} (first : Writing α) (next : α → Writing β)
    (written : List Piece) :
    (first >>= next).run written =
      (next (first.run written).1).run (first.run written).2 :=
  rfl

theorem CommandLine.run_report (text : String) (source : σ) (written : List Piece) :
    (CommandLine.report text source).run.run written =
      match Report.ofText text source with
      | .ok report => (.ok (), written ++ [.report report])
      | .error fault => (.error fault, written) := by
  refine (run_bind _ _ written).trans ?_
  cases Report.ofText text source <;> rfl

theorem CommandLine.run_report_of_ok {source : σ} {report : Report}
    (success : Report.ofText text source = .ok report) (written : List Piece) :
    (CommandLine.report text source).run.run written =
      (.ok (), written ++ [.report report]) := by
  rw [CommandLine.run_report, success]

/-- A report that fails has written nothing. -/
theorem CommandLine.run_report_of_error {source : σ} {fault : Fault}
    (failure : Report.ofText text source = .error fault) (written : List Piece) :
    (CommandLine.report text source).run.run written = (.error fault, written) := by
  rw [CommandLine.run_report, failure]

theorem CommandLine.report_ends_ok_iff {source : σ} {written : List Piece} :
    ((CommandLine.report text source).run.run written).1 = .ok () ↔
      ∃ report, Report.ofText text source = .ok report := by
  cases attempt : Report.ofText text source with
  | error fault =>
      rw [CommandLine.run_report_of_error attempt]
      exact ⟨fun absurd => by contradiction, fun ⟨_, absurd⟩ => by contradiction⟩
  | ok report =>
      rw [CommandLine.run_report_of_ok attempt]
      exact ⟨fun _ => ⟨report, rfl⟩, fun _ => rfl⟩

/-- Whether a text is reported on is decided before the first draw: it must read as an
expression that has a distribution under the standard limits and throws at most 1000
dice.  With a distribution and more dice the report always fails with too many rolls.
A report that succeeds prints lines, of which the second tells the bounds, the third
the roll and the fourth all outcomes; the roll is one of these outcomes and lies within
these bounds.  A report that fails writes nothing. -/
theorem CommandLine.report_decided_before_draws (text : String) (source : σ)
    (written : List Piece) :
    let ran := (CommandLine.report text source).run.run written
    let output := fun pieces : List Piece =>
      String.join (pieces.map (Piece.output Report.text))
    (ran.1 = .ok () ↔
      ∃ expression distribution, Expression.read text = .ok expression ∧
        expression.distribution .standard = .ok distribution ∧
        Dice.thrownInAll expression.throws ≤ 1000) ∧
    (∀ expression distribution, Expression.read text = .ok expression →
      expression.distribution .standard = .ok distribution →
      1000 < Dice.thrownInAll expression.throws →
        ran = (.error (.evaluation .tooManyRolls), written)) ∧
    (ran.1 = .ok () →
      ∃ (expression : Expression) (distribution : Distribution)
          (roll least greatest : Int64) (printed : String) (lines : List String),
        Expression.read text = .ok expression ∧
        expression.distribution .standard = .ok distribution ∧
        (expression.roll (some 1000) source).1 = .ok roll ∧
        distribution.outcomes.head? = some least ∧
        distribution.outcomes.getLast? = some greatest ∧
        output ran.2 = output written ++ printed ∧
        Text.Lined printed.toList (lines.map String.toList) ∧
        lines[1]? = some ("Bounds:       " ++ toString least.toInt ++ " to " ++
          toString greatest.toInt) ∧
        lines[2]? = some ("Rolled:       " ++ toString roll.toInt) ∧
        lines[3]? = some ("Outcomes:     \x7b" ++
          ", ".intercalate (distribution.outcomes.map fun outcome =>
            toString outcome.toInt) ++ "\x7d") ∧
        roll ∈ distribution.outcomes ∧ least ≤ roll ∧ roll ≤ greatest) ∧
    (∀ fault, ran.1 = .error fault → ran.2 = written) := by
  intro ran output
  refine ⟨?_, ?_, ?_, ?_⟩
  · rw [CommandLine.report_ends_ok_iff]
    constructor
    · intro ⟨report, success⟩
      obtain ⟨_, expression, read, found, fits⟩ := Report.rolled_mem_outcomes success
      exact ⟨expression, _, read, found, fits⟩
    · intro ⟨expression, distribution, read, found, fits⟩
      exact Report.exists_ofText read found fits source
  · intro expression distribution read found above
    exact CommandLine.run_report_of_error (Report.ofText_of_above read found above source)
      written
  · intro ended
    obtain ⟨report, success⟩ := CommandLine.report_ends_ok_iff.mp ended
    obtain ⟨expression, read, normalized, rolled, found⟩ :=
      Report.exists_of_ofText_ok success
    have member := (Report.rolled_mem_outcomes success).1
    have printed : output ran.2 = output written ++ report.text := by
      simp only [ran, output, CommandLine.run_report_of_ok success, List.map_append,
        String.join_append]
      exact congrArg (_ ++ ·) String.empty_append
    have normalizedLine : Text.OnOneLine report.normalized :=
      normalized ▸ Expression.text_onOneLine read
    obtain ⟨boundsTold, rollTold, outcomesTold, _⟩ :=
      report.lines_tell (toString report.rolled.toInt)
    exact ⟨expression, report.odds.distribution, report.rolled, report.odds.min,
      report.odds.max, report.text, _, read, found, rolled, List.head?_eq_some_head _,
      List.getLast?_eq_some_getLast _, printed, Report.lined_text normalizedLine,
      boundsTold, rollTold, outcomesTold, member, Odds.min_le member, Odds.le_max member⟩
  · intro fault failed
    cases attempt : Report.ofText text source with
    | error fault =>
        exact congrArg Prod.snd (CommandLine.run_report_of_error attempt written)
    | ok report =>
        rw [CommandLine.report_ends_ok_iff.mpr ⟨report, attempt⟩] at failed
        contradiction

end Reporting

/-- Two throws of 600 dice have a distribution, but no report whatever they show.  A die
that shows its four has a report, and the four is printed among its faces. -/
theorem many_dice_unreported :
    let dice := Atom.dice (.sum 600 (.numbered 1)) "600d1"
    let throws := Expression.combine (.term (.atom dice)) .add (.atom dice)
    let ran := fun text => (CommandLine.report text (Prepared.mk [4])).run.run []
    (∃ distribution, Expression.read "600d1+600d1" = .ok throws ∧
      throws.distribution .standard = .ok distribution ∧
      1000 < Dice.thrownInAll throws.throws ∧
      ran "600d1+600d1" = (.error (.evaluation .tooManyRolls), [])) ∧
    (ran "1d6").1 = .ok () ∧
    ∃ (printed : String) (lines : List String),
      String.join ((ran "1d6").2.map (Piece.output Report.text)) = printed ∧
      Text.Lined printed.toList (lines.map String.toList) ∧
      lines[1]? = some "Bounds:       1 to 6" ∧
      lines[2]? = some "Rolled:       4" ∧
      lines[3]? = some "Outcomes:     \x7b1, 2, 3, 4, 5, 6\x7d" := by
  intro dice throws ran
  constructor
  · have read : Expression.read "600d1+600d1" = .ok throws := by
      decide +kernel
    have above : 1000 < Dice.thrownInAll throws.throws := by
      decide
    have found : (throws.distribution .standard).isOk = true := by
      decide +kernel
    obtain ⟨_, refused, _, _⟩ :=
      CommandLine.report_decided_before_draws "600d1+600d1" (Prepared.mk [4]) []
    cases success : throws.distribution .standard with
    | error fault =>
        rw [success] at found
        contradiction
    | ok distribution =>
        exact ⟨distribution, read, rfl, above, refused throws distribution read success above⟩
  · let die := Expression.term (.atom (.dice (.sum 1 (.numbered 6)) "1d6"))
    have dieRead : Expression.read "1d6" = .ok die := by
      decide +kernel
    have dieRolled : (die.roll (some 1000) (Prepared.mk [4])).1 = .ok 4 := by
      decide +kernel
    have faces : (die.distribution .standard).map Distribution.outcomes =
        .ok [1, 2, 3, 4, 5, 6] := by
      decide +kernel
    obtain ⟨succeeds, _, tells, _⟩ :=
      CommandLine.report_decided_before_draws "1d6" (Prepared.mk [4]) []
    cases success : die.distribution .standard with
    | error fault =>
        rw [success] at faces
        contradiction
    | ok distribution =>
        have ended := succeeds.mpr ⟨die, distribution, dieRead, success, by decide⟩
        obtain ⟨expression, table, roll, least, greatest, printed, lines, read, found, rolled,
          first, last, output, lined, boundsTold, rollTold, outcomesTold, _⟩ := tells ended
        rw [dieRead] at read
        cases read
        rw [success] at found faces
        cases found
        rw [dieRolled] at rolled
        cases rolled
        have listed : distribution.outcomes = [1, 2, 3, 4, 5, 6] := Except.ok.inj faces
        rw [listed] at first last outcomesTold
        cases first
        cases last
        refine ⟨ended, printed, lines, output.trans String.empty_append, lined, ?_, ?_, ?_⟩
        · exact boundsTold.trans (by decide)
        · exact rollTold.trans (by decide)
        · exact outcomesTold.trans (by decide)

end DiceOdds
