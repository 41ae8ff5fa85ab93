import DiceOdds.Proofs.SessionFreshness

/-!
# What a session rolls

Rolls come from the expression, from the source, and from the caps on rolls that were
in force.  A history of actions asks for rolls, and a log of them can be made again
from what was asked and from the sources alone; so computations and other limits in
between leave no trace in it.  Many rolls at once are as many single ones, up to the
first that fails.
-/

namespace DiceOdds

variable {σ γ : Type}

/-- A roll that was made under a cap, or an exchange of sessions. -/
inductive Event where
  | rolled (cap : Cap) (result : Except EvalFault Int64)
  | saved
  | swapped

/-- What was asked of a source: so many rolls under a cap, up to the first that
fails; or an exchange of sessions. -/
inductive Demand where
  | rolls (cap : Cap) (many : Nat)
  | save
  | swap
  deriving DecidableEq, Repr

/-- What the event stands for if each roll was asked for singly. -/
def Event.demand : Event → Demand
  | .rolled cap _ => .rolls cap 1
  | .saved => .save
  | .swapped => .swap

variable [Roller σ]

/-- Single rolls up to and including the first that fails, but no more than so many. -/
def Session.rollSingly : Nat → Session σ → List (Except EvalFault Int64) × Session σ
  | 0, session => ([], session)
  | rolls + 1, session =>
      match session.roll with
      | (.error fault, session) => ([.error fault], session)
      | (.ok value, session) =>
          let (results, session) := Session.rollSingly rolls session
          (.ok value :: results, session)

/-- What an action asks for at a desk. -/
def Desk.demandsOf (desk : Desk σ) : Action → List Demand
  | .roll => [.rolls desk.session.limits.maxRolls 1]
  | .rollMany rolls => [.rolls desk.session.limits.maxRolls rolls]
  | .save => [.save]
  | .swap => [.swap]
  | .setLimits _ => []
  | .calculate => []

/-- What an action at a desk leaves in the log. -/
def Desk.eventsOf (desk : Desk σ) : Action → List Event
  | .roll => [.rolled desk.session.limits.maxRolls desk.session.roll.1]
  | .rollMany rolls =>
      (Session.rollSingly rolls desk.session).1.map
        (.rolled desk.session.limits.maxRolls)
  | .save => [.saved]
  | .swap => [.swapped]
  | .setLimits _ => []
  | .calculate => []

/-- What each action gives at the desk that the actions before it leave. -/
def Desk.collect (each : Desk σ → Action → List γ) (desk : Desk σ) :
    List Action → List γ
  | [] => []
  | action :: actions =>
      each desk action ++ (desk.perform action).2.collect each actions

/-- All that the actions ask for. -/
def Desk.demands (desk : Desk σ) : List Action → List Demand :=
  desk.collect Desk.demandsOf

/-- All that the actions leave in the log. -/
def Desk.log (desk : Desk σ) : List Action → List Event :=
  desk.collect Desk.eventsOf

/-- The sources of the session at work and of the one put aside. -/
def Desk.sources (desk : Desk σ) : σ × Option σ :=
  (desk.session.source, desk.aside.map Session.source)

section Singly

theorem Session.rollSingly_of_rollMany_ok {rolls : Nat} {session after : Session σ}
    {values : List Int64} (rolled : Session.rollMany rolls session = (.ok values, after)) :
    Session.rollSingly rolls session = (values.map .ok, after) ∧ values.length = rolls := by
  induction rolls generalizing session values with
  | zero =>
      cases rolled
      exact ⟨rfl, rfl⟩
  | succ rolls induction =>
      rw [Session.rollMany] at rolled
      rw [Session.rollSingly]
      rcases first : session.roll with ⟨fault | value, next⟩
      all_goals simp only [first] at rolled ⊢
      · cases rolled
      · rcases more : Session.rollMany rolls next with ⟨fault | later, last⟩
        all_goals
          rw [more] at rolled
          cases rolled
        obtain ⟨singly, length⟩ := induction more
        rw [singly]
        exact ⟨rfl, congrArg Nat.succ length⟩

theorem Session.rollSingly_of_rollMany_error {rolls : Nat} {session after : Session σ}
    {fault : EvalFault} (rolled : Session.rollMany rolls session = (.error fault, after)) :
    ∃ values : List Int64, values.length < rolls ∧
      Session.rollSingly rolls session = (values.map .ok ++ [.error fault], after) := by
  induction rolls generalizing session with
  | zero => cases rolled
  | succ rolls induction =>
      rw [Session.rollMany] at rolled
      rw [Session.rollSingly]
      rcases first : session.roll with ⟨cause | value, next⟩
      all_goals simp only [first] at rolled ⊢
      · cases rolled
        exact ⟨[], Nat.succ_pos _, rfl⟩
      · rcases more : Session.rollMany rolls next with ⟨cause | later, last⟩
        all_goals
          rw [more] at rolled
          cases rolled
        obtain ⟨values, few, singly⟩ := induction more
        rw [singly]
        exact ⟨value :: values, Nat.succ_lt_succ few, rfl⟩

/-- Many rolls leave the session where the single ones leave it. -/
theorem Session.rollMany_snd (rolls : Nat) (session : Session σ) :
    (Session.rollMany rolls session).2 = (Session.rollSingly rolls session).2 := by
  rcases rolled : Session.rollMany rolls session with ⟨fault | values, after⟩
  · obtain ⟨_, _, singly⟩ := Session.rollSingly_of_rollMany_error rolled
    rw [singly]
  · rw [(Session.rollSingly_of_rollMany_ok rolled).1]

/-- Single rolls at a desk are replied to one by one. -/
theorem Desk.run_single_rolls (desk : Desk σ) (rolls : Nat) :
    let (results, after) := Session.rollSingly rolls desk.session
    desk.run (List.replicate results.length .roll) =
      (results.map .rolled, { desk with session := after }) := by
  induction rolls generalizing desk with
  | zero => rfl
  | succ rolls induction =>
      rw [Session.rollSingly]
      rcases first : desk.session.roll with ⟨fault | value, next⟩
      · simp only [List.length_singleton, List.replicate_one, Desk.run, Desk.perform, first]
        rfl
      · have more := induction { desk with session := next }
        simp only [List.length_cons, List.replicate_succ, Desk.run, Desk.perform, first,
          List.map_cons] at more ⊢
        rw [more]

/-- Many rolls that succeed are as many single ones. -/
theorem Desk.run_singly_of_ok {desk after : Desk σ} {rolls : Nat} {values : List Int64}
    (rolled : desk.perform (.rollMany rolls) = (.rolledMany (.ok values), after)) :
    values.length = rolls ∧
      desk.run (List.replicate rolls .roll) =
        (values.map fun value => .rolled (.ok value), after) := by
  rcases many : Session.rollMany rolls desk.session with ⟨results, session⟩
  rw [Desk.perform, many] at rolled
  cases rolled
  obtain ⟨singly, length⟩ := Session.rollSingly_of_rollMany_ok many
  have single := desk.run_single_rolls rolls
  rw [singly] at single
  refine ⟨length, ?_⟩
  simpa [length, Function.comp_def] using single

/-- Many rolls that fail are the single ones up to the first that fails. -/
theorem Desk.run_singly_of_error {desk after : Desk σ} {rolls : Nat} {fault : EvalFault}
    (rolled : desk.perform (.rollMany rolls) = (.rolledMany (.error fault), after)) :
    ∃ values : List Int64, values.length < rolls ∧
      desk.run (List.replicate (values.length + 1) .roll) =
        ((values.map fun value => .rolled (.ok value)) ++ [.rolled (.error fault)],
          after) := by
  rcases many : Session.rollMany rolls desk.session with ⟨results, session⟩
  rw [Desk.perform, many] at rolled
  cases rolled
  obtain ⟨values, few, singly⟩ := Session.rollSingly_of_rollMany_error many
  have single := desk.run_single_rolls rolls
  rw [singly] at single
  refine ⟨values, few, ?_⟩
  simpa [Function.comp_def] using single

end Singly

section Replay

/-- Single rolls as they come from a source. -/
def Expression.rollSingly (cap : Cap) (expression : Expression) :
    Nat → σ → List (Except EvalFault Int64) × σ
  | 0, source => ([], source)
  | rolls + 1, source =>
      match expression.roll cap source with
      | (.error fault, source) => ([.error fault], source)
      | (.ok value, source) =>
          let (results, source) := expression.rollSingly cap rolls source
          (.ok value :: results, source)

/-- Does what is asked with the sources alone. -/
def Demand.meet (expression : Expression) :
    Demand → σ × Option σ → List Event × (σ × Option σ)
  | .rolls cap many, (source, aside) =>
      let (results, source) := expression.rollSingly cap many source
      (results.map (.rolled cap), (source, aside))
  | .save, (source, _) => ([.saved], (source, some source))
  | .swap, (source, none) => ([.swapped], (source, none))
  | .swap, (source, some other) => ([.swapped], (other, some source))

/-- Does all that is asked with the sources alone. -/
def Demand.meetAll (expression : Expression) :
    List Demand → σ × Option σ → List Event × (σ × Option σ)
  | [], sources => ([], sources)
  | demand :: demands, sources =>
      let (events, sources) := demand.meet expression sources
      let (later, sources) := Demand.meetAll expression demands sources
      (events ++ later, sources)

theorem Demand.meetAll_append (expression : Expression) (first second : List Demand)
    (sources : σ × Option σ) :
    Demand.meetAll expression (first ++ second) sources =
      let (events, sources) := Demand.meetAll expression first sources
      let (later, sources) := Demand.meetAll expression second sources
      (events ++ later, sources) := by
  induction first generalizing sources with
  | nil => rfl
  | cons demand demands induction =>
      simp only [List.cons_append, Demand.meetAll, induction, List.append_assoc]

/-- A session rolls as its source does, and only the source moves on. -/
theorem Session.rollSingly_eq (rolls : Nat) (session : Session σ) :
    Session.rollSingly rolls session =
      let (results, source) := session.expression.rollSingly
        session.limits.maxRolls rolls session.source
      (results, { session with source }) := by
  induction rolls generalizing session with
  | zero => rfl
  | succ rolls induction =>
      rw [Session.rollSingly, Expression.rollSingly, Session.roll]
      rcases session.expression.roll session.limits.maxRolls session.source with
        ⟨fault | value, source⟩
      · rfl
      · simp only [induction]

/-- Rolls that stop at the first failure are the same if each is asked for singly. -/
theorem Demand.meetAll_singly (expression : Expression) (cap : Cap) (rolls : Nat)
    (source : σ) (aside : Option σ) :
    let (results, after) := expression.rollSingly cap rolls source
    Demand.meetAll expression (results.map fun _ => .rolls cap 1) (source, aside) =
      (results.map (.rolled cap), (after, aside)) := by
  induction rolls generalizing source with
  | zero => rfl
  | succ rolls induction =>
      rw [Expression.rollSingly]
      rcases rolled : expression.roll cap source with ⟨fault | value, after⟩
      · simp only [List.map_cons, List.map_nil, Demand.meetAll, Demand.meet,
          Expression.rollSingly, rolled]
        rfl
      · have later := induction after
        simp only [List.map_cons, Demand.meetAll, Demand.meet, Expression.rollSingly,
          rolled] at later ⊢
        rw [later]
        rfl

theorem Expression.rollSingly_one (cap : Cap) (expression : Expression) (source : σ) :
    expression.rollSingly cap 1 source =
      ([(expression.roll cap source).1], (expression.roll cap source).2) := by
  rw [Expression.rollSingly]
  rcases expression.roll cap source with ⟨fault | value, after⟩
  · rfl
  · rfl

omit [Roller σ] in
theorem Session.calculate_source (session : Session σ) :
    session.calculate.2.source = session.source := by
  rw [Session.calculate]
  split
  · rfl
  · rfl

section Steps

variable {expression : Expression} {desk : Desk σ}

/-- What an action asks for gives what it leaves in the log. -/
theorem Desk.meetAll_demandsOf (held : desk.session.expression = expression)
    (action : Action) :
    Demand.meetAll expression (desk.demandsOf action) desk.sources =
      (desk.eventsOf action, (desk.perform action).2.sources) := by
  subst held
  cases action with
  | setLimits limits => rfl
  | roll =>
      simp only [Desk.demandsOf, Demand.meetAll, Demand.meet, Desk.sources,
        Expression.rollSingly_one]
      rfl
  | rollMany rolls =>
      simp only [Desk.demandsOf, Demand.meetAll, Demand.meet, Desk.sources, Desk.eventsOf,
        Desk.perform, Session.rollMany_snd, Session.rollSingly_eq, List.append_nil]
  | calculate =>
      simp only [Desk.demandsOf, Demand.meetAll, Desk.eventsOf, Desk.perform, Desk.sources,
        Session.calculate_source]
  | save => rfl
  | swap =>
      rw [Desk.perform]
      cases saved : desk.aside with
      | none =>
          simp only [Desk.demandsOf, Demand.meetAll, Desk.sources, saved]
          rfl
      | some other =>
          simp only [Desk.demandsOf, Demand.meetAll, Desk.sources, saved]
          rfl

/-- What an action leaves in the log, asked for singly, gives the same log. -/
theorem Desk.meetAll_eventsOf (held : desk.session.expression = expression)
    (action : Action) :
    Demand.meetAll expression ((desk.eventsOf action).map Event.demand) desk.sources =
      (desk.eventsOf action, (desk.perform action).2.sources) := by
  rw [← Desk.meetAll_demandsOf held action]
  cases action with
  | rollMany rolls =>
      subst held
      have singly := Demand.meetAll_singly desk.session.expression
        desk.session.limits.maxRolls rolls desk.session.source (desk.aside.map Session.source)
      simp only [Desk.eventsOf, Session.rollSingly_eq, List.map_map, Function.comp_def,
        Event.demand, Desk.sources, singly, Desk.demandsOf, Demand.meetAll, Demand.meet,
        List.append_nil]
  | _ => rfl

end Steps

theorem Desk.map_collect {δ : Type} (each : Desk σ → Action → List γ) (change : γ → δ)
    (desk : Desk σ) (actions : List Action) :
    (desk.collect each actions).map change =
      desk.collect (fun desk action => (each desk action).map change) actions := by
  induction actions generalizing desk with
  | nil => rfl
  | cons action actions rest => simp only [Desk.collect, List.map_append, rest]

omit [Roller σ] in
theorem Session.Fresh.expression_eq {text : String} {expression : Expression}
    {session : Session σ} (fresh : session.Fresh text)
    (accepted : Expression.read text = .ok expression) :
    session.expression = expression := by
  have parsed := fresh.parsed
  rw [fresh.text_eq, accepted] at parsed
  exact (Except.ok.inj parsed).symm

/-- Sources that meet what each action asks for meet what a history asks for. -/
theorem Desk.meetAll_collect {text : String} {expression : Expression}
    (accepted : Expression.read text = .ok expression)
    {ask : Desk σ → Action → List Demand}
    (meets : ∀ {desk : Desk σ}, desk.session.expression = expression → ∀ action,
      Demand.meetAll expression (ask desk action) desk.sources =
        (desk.eventsOf action, (desk.perform action).2.sources))
    {desk : Desk σ} (fresh : desk.Fresh text) (actions : List Action) :
    Demand.meetAll expression (desk.collect ask actions) desk.sources =
      (desk.log actions, (desk.run actions).2.sources) := by
  induction actions generalizing desk with
  | nil => rfl
  | cons action actions rest =>
      have first := meets (fresh.session.expression_eq accepted) action
      have later := rest (fresh.perform action)
      simp only [Desk.collect, Demand.meetAll_append, first, later]
      rfl

end Replay

/-- Rolls and computations at a desk do not disturb each other.  Histories that ask
for the same rolls under the same caps, whatever else they do, have the same results
in their logs and leave the same sources; whether they ask for many rolls at once
does not matter.  A computation gives what the expression of the text and the limits
on its work and its nesting give, whatever was rolled before.  Many rolls give what as
many single ones give; if they fail, it is with the fault of the first single one that
fails, and they leave all as the single ones up to that one do. -/
theorem Desk.rolls_undisturbed {text : String} {expression : Expression}
    (accepted : Expression.read text = .ok expression) (source : σ) :
    let session : Session σ :=
      { text, expression, limits := .standard, source, odds := none }
    let start := Desk.ofSession session
    Session.start text source = .ok session ∧
    (∀ left right,
      start.demands left = start.demands right ∨
        (start.log left).map Event.demand = (start.log right).map Event.demand →
      start.log left = start.log right ∧
        (start.run left).2.sources = (start.run right).2.sources) ∧
    (∀ actions,
      let desk := (start.run actions).2
      (desk.perform .calculate).1 =
        .calculated (expression.odds { desk.session.limits with maxRolls := none })) ∧
    ∀ actions rolls,
      let desk := (start.run actions).2
      (∀ values after,
        desk.perform (.rollMany rolls) = (.rolledMany (.ok values), after) →
          values.length = rolls ∧
          desk.run (List.replicate rolls .roll) =
            (values.map fun value => .rolled (.ok value), after)) ∧
      ∀ fault after,
        desk.perform (.rollMany rolls) = (.rolledMany (.error fault), after) →
          ∃ values : List Int64, values.length < rolls ∧
            desk.run (List.replicate (values.length + 1) .roll) =
              ((values.map fun value => .rolled (.ok value)) ++ [.rolled (.error fault)],
                after) := by
  intro session start
  have started : Session.start text source = .ok session :=
    Session.start_of_read accepted source
  have fresh : start.Fresh text := Desk.fresh_of_start started
  refine ⟨started, ?_, ?_, ?_⟩
  · intro left right same
    have asked : ∀ actions, Demand.meetAll expression (start.demands actions) start.sources =
        (start.log actions, (start.run actions).2.sources) :=
      Desk.meetAll_collect accepted Desk.meetAll_demandsOf fresh
    have logged : ∀ actions,
        Demand.meetAll expression ((start.log actions).map Event.demand) start.sources =
          (start.log actions, (start.run actions).2.sources) := by
      intro actions
      rw [Desk.log, Desk.map_collect]
      exact Desk.meetAll_collect accepted Desk.meetAll_eventsOf fresh actions
    have both : (start.log left, (start.run left).2.sources) =
        (start.log right, (start.run right).2.sources) := by
      rcases same with same | same
      · rw [← asked left, ← asked right, same]
      · rw [← logged left, ← logged right, same]
    exact ⟨congrArg Prod.fst both, congrArg Prod.snd both⟩
  · intro actions desk
    have held : desk.session.expression = expression :=
      (fresh.run actions).session.expression_eq accepted
    have computed : desk.session.calculate.1 =
        desk.session.expression.odds { desk.session.limits with maxRolls := none } :=
      desk.session.calculate_fst
    rw [← held, ← computed]
    rfl
  · intro actions rolls desk
    exact ⟨fun _ _ rolled => Desk.run_singly_of_ok rolled,
      fun _ _ rolled => Desk.run_singly_of_error rolled⟩

/-- The second roll divides by zero.  Three rolls at once end there and draw as two
single ones do; computing, which fails, and tighter limits do not show in the log. -/
theorem divided_die_rolls_undisturbed :
    let divisor := Atom.group (.combine
      (.term (.atom (.dice (.sum 1 (.numbered 2)) "1d2"))) .sub (.atom (.constant 1)))
    let expression := Expression.term
      (.combine (.atom (.dice (.sum 1 (.numbered 6)) "1d6")) .div divisor)
    let session : Session Prepared :=
      { text := "1d6/(1d2-1)", expression, limits := .standard,
        source := ⟨[5, 2, 3, 1, 6, 2]⟩, odds := none }
    let start := Desk.ofSession session
    let tight : Limits :=
      { Limits.standard with maxCombinations := some 0, maxDepth := some 0 }
    let left := [Action.calculate, .rollMany 3, .setLimits tight, .roll]
    let right := [Action.roll, .setLimits tight, .roll, .calculate, .roll]
    Expression.read "1d6/(1d2-1)" = .ok expression ∧
    (start.log left).map Event.demand = (start.log right).map Event.demand ∧
    start.log left = start.log right ∧
    (start.run left).2.sources = (start.run right).2.sources ∧
    ∃ after, start.perform (.rollMany 3) =
        (.rolledMany (.error .divisionByZero), after) ∧
      ∃ values : List Int64, values.length < 3 ∧
        start.run (List.replicate (values.length + 1) .roll) =
          ((values.map fun value => .rolled (.ok value)) ++
            [.rolled (.error .divisionByZero)], after) := by
  intro divisor expression session start tight left right
  have accepted : Expression.read "1d6/(1d2-1)" = .ok expression := by
    decide +kernel
  obtain ⟨_, undisturbed, _, many⟩ :=
    Desk.rolls_undisturbed accepted (Prepared.mk [5, 2, 3, 1, 6, 2])
  have same : (start.log left).map Event.demand = (start.log right).map Event.demand := by
    decide +kernel
  obtain ⟨logs, sources⟩ := undisturbed left right (.inr same)
  rcases rolled : Session.rollMany 3 session with ⟨results, after⟩
  have failed : results = .error .divisionByZero := by
    have results_eq : results = (Session.rollMany 3 session).1 := by rw [rolled]
    rw [results_eq]
    decide +kernel
  have performed : start.perform (.rollMany 3) =
      (.rolledMany (.error .divisionByZero), { start with session := after }) := by
    rw [Desk.perform]
    simp only [start, Desk.ofSession, rolled, failed]
  exact ⟨accepted, same, logs, sources, _, performed,
    (many [] 3).2 _ _ performed⟩

end DiceOdds
