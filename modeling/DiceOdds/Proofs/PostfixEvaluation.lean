import DiceOdds.Proofs.Attempts
import DiceOdds.Proofs.DrawVectors
import DiceOdds.Proofs.ShuntingYard
import DiceOdds.Roll.Evaluation

/-!
# Evaluation in postfix order

An evaluator keeps a state, may fail, and is asked for one value at a time: for
each leaf, and for each operator with the values it joins.  The calls it gets
from a text are those of the postfix order of the words, as the shunting yard
gives it, played on a stack of values.  The first call that fails is the last
one made, and its failure is the outcome.
-/

namespace DiceOdds

/-- Interpretations that keep a state, also when they fail. -/
abbrev Evaluator (σ ε α : Type) := Interpretation (ExceptT ε (StateM σ)) α

/-- What an evaluator is asked for. -/
inductive Call (α : Type) where
  | constant (value : Int64)
  | dice (dice : Dice) (lexeme : String)
  | combine (lhs : α) (operator : Operator) (rhs : α)
  deriving DecidableEq, Repr

variable {σ ε α β γ : Type}

def Evaluator.answer (evaluator : Evaluator σ ε α) : Call α → ExceptT ε (StateM σ) α
  | .constant value => evaluator.constant value
  | .dice dice lexeme => evaluator.dice dice lexeme
  | .combine lhs operator rhs => evaluator.combine lhs operator rhs

/-- Does an action and adds calls to a log. -/
def logged (calls : List (Call β)) (action : ExceptT ε (StateM σ) α) :
    ExceptT ε (StateM (σ × List (Call β))) α :=
  ExceptT.mk fun (state, log) =>
    let (outcome, next) := action.run state
    (outcome, next, log ++ calls)

/-- The same evaluator with a log of the calls it gets. -/
def Evaluator.logging (evaluator : Evaluator σ ε α) :
    Evaluator (σ × List (Call α)) ε α where
  constant value := logged [.constant value] (evaluator.constant value)
  dice dice lexeme := logged [.dice dice lexeme] (evaluator.dice dice lexeme)
  group value := logged [] (evaluator.group value)
  combine lhs operator rhs :=
    logged [.combine lhs operator rhs] (evaluator.combine lhs operator rhs)

/-- The calls made, what came of them, and the state left. -/
structure Evaluation (σ ε α β : Type) where
  calls : List (Call α)
  outcome : Except ε β
  state : σ

def Evaluation.map (change : β → γ) (evaluation : Evaluation σ ε α β) :
    Evaluation σ ε α γ :=
  { evaluation with outcome := evaluation.outcome.map change }

/-- Goes on from the value reached; a failure ends the evaluation. -/
def Evaluation.andThen (evaluation : Evaluation σ ε α β)
    (next : β → σ → Option (Evaluation σ ε α γ)) : Option (Evaluation σ ε α γ) :=
  match evaluation.outcome with
  | .error fault => some { evaluation with outcome := .error fault }
  | .ok value => do
      let rest ← next value evaluation.state
      some { rest with calls := evaluation.calls ++ rest.calls }

/-- One call and its answer. -/
def Evaluator.make (evaluator : Evaluator σ ε α) (call : Call α) (state : σ) :
    Evaluation σ ε α α :=
  let (outcome, next) := (evaluator.answer call).run state
  { calls := [call], outcome, state := next }

/-- What an expression asks of an evaluator. -/
def Evaluator.visit (evaluator : Evaluator σ ε α) (expression : Expression)
    (state : σ) : Evaluation σ ε α α :=
  let (outcome, next, calls) := (expression.interpret evaluator.logging).run (state, [])
  { calls, outcome, state := next }

/-- The call an item stands for, and the values left.  Values are listed from the
most recent one; an operator takes two, and the older one stands to its left. -/
def Postfix.call? : Postfix → List α → Option (Call α × List α)
  | .constant value, values => some (.constant value, values)
  | .dice thrown lexeme, values => some (.dice thrown lexeme, values)
  | .combine operator, rhs :: lhs :: values => some (.combine lhs operator rhs, values)
  | .combine _, _ => none

/-- Makes the calls of the items one after another, up to the first that fails. -/
def Evaluator.play (evaluator : Evaluator σ ε α) :
    List Postfix → List α → σ → Option (Evaluation σ ε α (List α))
  | [], values, state => some { calls := [], outcome := .ok values, state }
  | item :: items, values, state => do
      let (call, values) ← item.call? values
      (evaluator.make call state).andThen fun value =>
        evaluator.play items (value :: values)

/-- The calls are answered one after another.  Each but the last is answered with
a value, and the last answer is the outcome. -/
inductive Evaluator.Answers (evaluator : Evaluator σ ε α) :
    σ → List (Call α) → Except ε α → σ → Prop where
  | last {call : Call α} {outcome : Except ε α} {state final : σ} :
      (evaluator.answer call).run state = (outcome, final) →
      Answers evaluator state [call] outcome final
  | next {call : Call α} {value : α} {calls : List (Call α)} {outcome : Except ε α}
      {state after final : σ} :
      (evaluator.answer call).run state = (.ok value, after) →
      Answers evaluator after calls outcome final →
      Answers evaluator state (call :: calls) outcome final

theorem Evaluation.andThen_assoc {δ : Type} (evaluation : Evaluation σ ε α β)
    (first : β → σ → Option (Evaluation σ ε α γ))
    (second : γ → σ → Option (Evaluation σ ε α δ)) :
    (evaluation.andThen first).bind (·.andThen second) =
      evaluation.andThen fun value state => (first value state).bind (·.andThen second) := by
  obtain ⟨calls, outcome, state⟩ := evaluation
  cases outcome with
  | error fault => rfl
  | ok value =>
      simp only [Evaluation.andThen]
      rcases first value state with _ | ⟨more, _ | next, after⟩
      · rfl
      · rfl
      · simp only [Option.bind_eq_bind, Option.bind_some]
        cases second next after with
        | none => rfl
        | some rest =>
            simp only [Option.bind_some, List.append_assoc]

theorem Evaluator.play_append (evaluator : Evaluator σ ε α) (left right : List Postfix)
    (values : List α) (state : σ) :
    evaluator.play (left ++ right) values state =
      (evaluator.play left values state).bind (·.andThen (evaluator.play right)) := by
  induction left generalizing values state with
  | nil =>
      exact (Option.bind_fun_some _).symm
  | cons item left rest =>
      simp only [List.cons_append, Evaluator.play]
      cases item.call? values with
      | none => rfl
      | some taken =>
          simp only [Option.bind_eq_bind, Option.bind_some, Evaluation.andThen_assoc]
          congr 1
          funext value state
          exact rest (value :: taken.2) state

section Cons

variable {evaluator : Evaluator σ ε α} {item : Postfix} {call : Call α}
  {values left : List α} {state after : σ}

theorem Evaluator.play_cons_of_error {fault : ε}
    (asks : item.call? values = some (call, left))
    (answered : (evaluator.answer call).run state = (.error fault, after))
    (items : List Postfix) :
    evaluator.play (item :: items) values state =
      some { calls := [call], outcome := .error fault, state := after } := by
  simp only [Evaluator.play, asks, Option.bind_eq_bind, Option.bind_some,
    Evaluator.make, answered, Evaluation.andThen]

theorem Evaluator.play_cons_of_ok {value : α}
    (asks : item.call? values = some (call, left))
    (answered : (evaluator.answer call).run state = (.ok value, after))
    (items : List Postfix) :
    evaluator.play (item :: items) values state =
      (evaluator.play items (value :: left) after).map fun rest =>
        { rest with calls := call :: rest.calls } := by
  simp only [Evaluator.play, asks, Option.bind_eq_bind, Option.bind_some,
    Evaluator.make, answered, Evaluation.andThen]
  cases evaluator.play items (value :: left) after <;> rfl

/-- Whatever comes of it, the call of the first item is the first call made. -/
theorem Evaluator.calls_of_play_cons {items : List Postfix}
    {evaluation : Evaluation σ ε α (List α)}
    (asks : item.call? values = some (call, left))
    (played : evaluator.play (item :: items) values state = some evaluation) :
    ∃ more, evaluation.calls = call :: more := by
  rcases answered : (evaluator.answer call).run state with ⟨fault | value, after⟩
  · rw [Evaluator.play_cons_of_error asks answered] at played
    cases played
    exact ⟨[], rfl⟩
  · rw [Evaluator.play_cons_of_ok asks answered] at played
    obtain ⟨rest, _, rfl⟩ := Option.map_eq_some_iff.mp played
    exact ⟨rest.calls, rfl⟩

end Cons

/-- An action, and the same action with a log, make the calls of the items, which
take these values off the stack and leave the value of the action there.  The log
and the rest of the stack do not matter. -/
def Evaluator.Performs (evaluator : Evaluator σ ε α) (items : List Postfix)
    (taken : List α) (action : ExceptT ε (StateM σ) α)
    (logging : ExceptT ε (StateM (σ × List (Call α))) α) : Prop :=
  ∀ state, ∃ evaluation : Evaluation σ ε α α,
    action.run state = (evaluation.outcome, evaluation.state) ∧
    (∀ log, logging.run (state, log) =
      (evaluation.outcome, evaluation.state, log ++ evaluation.calls)) ∧
    ∀ values, evaluator.play items (taken ++ values) state =
      some (evaluation.map (· :: values))

theorem Evaluator.performs_call (evaluator : Evaluator σ ε α) {item : Postfix}
    {taken : List α} {call : Call α}
    (asks : ∀ values, item.call? (taken ++ values) = some (call, values)) :
    evaluator.Performs [item] taken (evaluator.answer call)
      (logged [call] (evaluator.answer call)) := by
  intro state
  refine ⟨evaluator.make call state, rfl, fun _ => rfl, fun values => ?_⟩
  simp only [Evaluator.play, asks, Option.bind_eq_bind, Option.bind_some]
  obtain ⟨calls, outcome, final⟩ := evaluator.make call state
  cases outcome with
  | error fault => rfl
  | ok value => simp [Evaluation.andThen, Evaluation.map, Except.map]

theorem Evaluator.Performs.bind {evaluator : Evaluator σ ε α}
    {left right : List Postfix} {taken : List α} {action : ExceptT ε (StateM σ) α}
    {next : α → ExceptT ε (StateM σ) α}
    {logging : ExceptT ε (StateM (σ × List (Call α))) α}
    {nextLogging : α → ExceptT ε (StateM (σ × List (Call α))) α}
    (first : evaluator.Performs left [] action logging)
    (second : ∀ value,
      evaluator.Performs right (value :: taken) (next value) (nextLogging value)) :
    evaluator.Performs (left ++ right) taken (action >>= next)
      (logging >>= nextLogging) := by
  intro state
  obtain ⟨⟨calls, outcome, after⟩, runs, logs, plays⟩ := first state
  simp only [List.nil_append] at plays
  cases outcome with
  | error fault =>
      refine ⟨⟨calls, .error fault, after⟩, ?_, fun log => ?_, fun values => ?_⟩
      · rw [run_bind, runs]
      · rw [run_bind, logs]
      · rw [Evaluator.play_append, plays]
        rfl
  | ok value =>
      obtain ⟨⟨more, outcome, final⟩, runsNext, logsNext, playsNext⟩ := second value after
      refine ⟨⟨calls ++ more, outcome, final⟩, ?_, fun log => ?_, fun values => ?_⟩
      · simp only [run_bind, runs, runsNext]
      · simp only [run_bind, logs, logsNext, List.append_assoc]
      · rw [Evaluator.play_append, plays]
        simp only [Evaluation.map, Except.map, Evaluation.andThen, Option.bind_some,
          ← List.cons_append, playsNext, Option.bind_eq_bind]

/-- Two operands and the operator that joins them. -/
theorem Evaluator.Performs.combine {evaluator : Evaluator σ ε α}
    {left right : List Postfix} {lhs rhs : ExceptT ε (StateM σ) α}
    {lhsLogging rhsLogging : ExceptT ε (StateM (σ × List (Call α))) α}
    (first : evaluator.Performs left [] lhs lhsLogging)
    (second : evaluator.Performs right [] rhs rhsLogging) (operator : Operator) :
    evaluator.Performs (left ++ right ++ [.combine operator]) []
      (do
        let leftValue ← lhs
        let rightValue ← rhs
        evaluator.combine leftValue operator rightValue)
      (do
        let leftValue ← lhsLogging
        let rightValue ← rhsLogging
        evaluator.logging.combine leftValue operator rightValue) := by
  rw [List.append_assoc]
  refine first.bind fun leftValue => second.bind fun rightValue => ?_
  exact @Evaluator.performs_call _ _ _ evaluator _ [rightValue, leftValue]
    (.combine leftValue operator rightValue) fun _ => rfl

theorem logged_pure (value : α) :
    logged [] (pure value : ExceptT ε (StateM σ) α) =
      (pure value : ExceptT ε (StateM (σ × List (Call β))) α) := by
  funext ⟨state, log⟩
  simp only [logged, List.append_nil]
  rfl

mutual

/-- Visiting an expression makes the calls of its postfix order. -/
theorem Expression.performs {evaluator : Evaluator σ ε α}
    (passes : ∀ value, evaluator.group value = pure value) (expression : Expression) :
    evaluator.Performs expression.postfixOrder [] (expression.interpret evaluator)
      (expression.interpret evaluator.logging) := by
  cases expression with
  | term single => exact single.performs passes
  | combine lhs operator rhs =>
      exact (lhs.performs passes).combine (rhs.performs passes) operator

theorem Term.performs {evaluator : Evaluator σ ε α}
    (passes : ∀ value, evaluator.group value = pure value) (term : Term) :
    evaluator.Performs term.postfixOrder [] (term.interpret evaluator)
      (term.interpret evaluator.logging) := by
  cases term with
  | atom single => exact single.performs passes
  | combine lhs operator rhs =>
      exact (lhs.performs passes).combine (rhs.performs passes) operator

theorem Atom.performs {evaluator : Evaluator σ ε α}
    (passes : ∀ value, evaluator.group value = pure value) (atom : Atom) :
    evaluator.Performs atom.postfixOrder [] (atom.interpret evaluator)
      (atom.interpret evaluator.logging) := by
  cases atom with
  | constant value =>
      exact @Evaluator.performs_call _ _ _ evaluator _ [] (.constant value) fun _ => rfl
  | dice thrown lexeme =>
      exact @Evaluator.performs_call _ _ _ evaluator _ [] (.dice thrown lexeme)
        fun _ => rfl
  | group inner =>
      -- A group hands its value on, so its items are those of the inner expression.
      have ungrouped : (Atom.group inner).interpret evaluator =
          inner.interpret evaluator := by
        simp only [Atom.interpret, passes, bind_pure]
      have ungroupedLogging : (Atom.group inner).interpret evaluator.logging =
          inner.interpret evaluator.logging := by
        simp only [Atom.interpret, Evaluator.logging, passes, logged_pure, bind_pure]
      rw [ungrouped, ungroupedLogging]
      exact inner.performs passes

end

/-- What a visit asks for, and what comes of it, is what playing the postfix order
gives. -/
theorem Expression.play_eq_visit {evaluator : Evaluator σ ε α}
    (passes : ∀ value, evaluator.group value = pure value) (expression : Expression)
    (state : σ) :
    let visit := evaluator.visit expression state
    evaluator.play expression.postfixOrder [] state =
        some (visit.map fun value => [value]) ∧
      (expression.interpret evaluator).run state = (visit.outcome, visit.state) := by
  intro visit
  obtain ⟨evaluation, runs, logs, plays⟩ := expression.performs passes state
  have visited : visit = evaluation := by
    simp only [visit, Evaluator.visit, logs, List.nil_append]
  rw [visited]
  exact ⟨plays [], runs⟩

/-- Playing items makes calls up to the first failure; the last answer is the
outcome, and a value is left on top of the stack. -/
theorem Evaluator.answers_of_play {evaluator : Evaluator σ ε α} {items : List Postfix}
    {values : List α} {state : σ} {evaluation : Evaluation σ ε α (List α)}
    (played : evaluator.play items values state = some evaluation)
    (nonempty : items ≠ []) :
    ∃ outcome, evaluator.Answers state evaluation.calls outcome evaluation.state ∧
      evaluation.outcome.map List.head? = outcome.map some := by
  induction items generalizing values state evaluation with
  | nil => contradiction
  | cons item items rest =>
      simp only [Evaluator.play, Option.bind_eq_bind] at played
      obtain ⟨⟨call, left⟩, asks, played⟩ := Option.bind_eq_some_iff.mp played
      rcases answered : (evaluator.answer call).run state with ⟨fault | value, after⟩
      · simp only [Evaluator.make, answered, Evaluation.andThen, Option.some.injEq] at played
        subst played
        exact ⟨.error fault, .last answered, rfl⟩
      · simp only [Evaluator.make, answered, Evaluation.andThen,
          Option.bind_eq_bind] at played
        obtain ⟨later, playedLater, same⟩ := Option.bind_eq_some_iff.mp played
        cases same
        cases items with
        | nil =>
            cases playedLater
            exact ⟨.ok value, .last answered, rfl⟩
        | cons item items =>
            obtain ⟨outcome, answers, top⟩ := rest playedLater (List.cons_ne_nil _ _)
            exact ⟨outcome, .next answered answers, top⟩

/-- An expression asks an evaluator for the calls of the postfix order of its
words, and for nothing after the first call that fails. -/
theorem Expression.visit_plays_postfix {text : String} {expression : Expression}
    (accepted : Expression.read text = .ok expression) :
    ∃ tokens items, tokenize text = .ok tokens ∧
      Word.shunt (tokens.map Token.word) = some items ∧
      ∀ {σ ε α : Type} (evaluator : Evaluator σ ε α),
        (∀ value, evaluator.group value = pure value) → ∀ state,
        let visit := evaluator.visit expression state
        evaluator.play items [] state = some (visit.map fun value => [value]) ∧
        evaluator.Answers state visit.calls visit.outcome visit.state ∧
        (expression.interpret evaluator).run state = (visit.outcome, visit.state) := by
  obtain ⟨tokens, cut, derives, _⟩ := Expression.derives_of_read accepted
  have spelled := (Token.allSpelled_of_tokenize cut).words
  refine ⟨tokens, expression.postfixOrder, cut, derives.shunt_eq spelled, ?_⟩
  intro σ ε α evaluator passes state visit
  obtain ⟨evaluation, runs, logs, plays⟩ := expression.performs passes state
  have visited : visit = evaluation := by
    simp only [visit, Evaluator.visit, logs, List.nil_append]
  have played : evaluator.play expression.postfixOrder [] state =
      some (evaluation.map fun value => [value]) := plays []
  -- An empty sequence would leave no value on the stack.
  have nonempty : expression.postfixOrder ≠ [] := by
    intro empty
    rw [empty] at played
    rcases evaluation with ⟨calls, fault | value, final⟩ <;> cases played
  obtain ⟨outcome, answers, top⟩ := Evaluator.answers_of_play played nonempty
  have same : outcome = evaluation.outcome := by
    rcases evaluation with ⟨calls, fault | value, final⟩ <;> cases outcome <;>
      cases top <;> rfl
  rw [visited]
  rw [same] at answers
  exact ⟨played, answers, runs⟩

/-- A die shows five, a constant times a die is eight, which cannot be divided by
zero; the last die is not thrown. -/
theorem roll_stops_at_division :
    let die := Atom.dice (.sum 1 (.numbered 6)) "1d6"
    let product := Expression.term (.combine (.atom (.constant 2)) .mul die)
    let expression := Expression.combine
      (.combine (.term (.atom die)) .sub
        (.combine (.atom (.group product)) .div (.constant 0)))
      .sub (.atom die)
    let evaluator : Evaluator (Tray Prepared) EvalFault Int64 := rolling none
    let visit := evaluator.visit expression (.fresh ⟨[5, 4, 3]⟩)
    Expression.read "1d6-(2*1d6)/0-1d6" = .ok expression ∧
    visit.calls =
      [.dice (.sum 1 (.numbered 6)) "1d6", .constant 2,
        .dice (.sum 1 (.numbered 6)) "1d6", .combine 2 .mul 4, .constant 0,
        .combine 8 .div 0] ∧
    visit.outcome = .error .divisionByZero ∧
    ∃ tokens items, tokenize "1d6-(2*1d6)/0-1d6" = .ok tokens ∧
      Word.shunt (tokens.map Token.word) = some items ∧
      evaluator.play items [] (.fresh ⟨[5, 4, 3]⟩) =
        some (visit.map fun value => [value]) ∧
      evaluator.Answers (.fresh ⟨[5, 4, 3]⟩) visit.calls visit.outcome visit.state ∧
      (expression.interpret evaluator).run (.fresh ⟨[5, 4, 3]⟩) =
        (visit.outcome, visit.state) := by
  intro die product expression evaluator visit
  have accepted : Expression.read "1d6-(2*1d6)/0-1d6" = .ok expression := by
    decide +kernel
  obtain ⟨tokens, items, cut, shunted, follows⟩ := Expression.visit_plays_postfix accepted
  have passes : ∀ value, evaluator.group value = pure value := fun _ => rfl
  exact ⟨accepted, by decide +kernel, by decide +kernel, tokens, items, cut, shunted,
    follows evaluator passes _⟩

end DiceOdds
