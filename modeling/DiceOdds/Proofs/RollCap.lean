import DiceOdds.Proofs.PostfixEvaluation
import DiceOdds.Proofs.TrayReuse

/-!
# The cap on rolls

A cap does nothing to a roll but end it.  A capped roll makes the calls that a free
one makes, with the same answers, until it reaches sound dice that bring the count
above the cap; these are refused before the first of them is drawn.  However often
a tray is used, and whatever fails on it, no more dice are drawn than the cap allows.
-/

namespace DiceOdds

/-- Of the dice reached, these are the first sound ones that bring the count above
the limit. -/
structure Dice.FirstAbove (limit : Nat) (reached before : List Dice) (dice : Dice) :
    Prop where
  place : ∃ after, reached = before ++ dice :: after
  sound : dice.defect? = none
  within : Dice.thrownInAll before ≤ limit
  above : limit < Dice.thrownInAll before + dice.thrown.toNat

/-- The dice that a call asks for. -/
def Call.throws {α : Type} : Call α → List Dice
  | .constant _ => []
  | .dice thrown _ => [thrown]
  | .combine _ _ _ => []

/-- The dice that were asked for, also those that were refused. -/
def Evaluation.reached {σ ε α β : Type} (evaluation : Evaluation σ ε α β) : List Dice :=
  evaluation.calls.flatMap Call.throws

variable {σ β γ : Type}

/-- What a cap that has room for so many dice makes of a free roll on the tray. -/
structure Evaluation.CappedFrom (room : Nat) (tray : Tray (Recorded σ))
    (capped free : Evaluation (Tray (Recorded σ)) EvalFault Int64 β) : Prop where
  /-- Within the room the roll goes as a free one. -/
  same : (∀ before dice, ¬ Dice.FirstAbove room free.reached before dice) → capped = free
  /-- The first dice above it end the roll, without a draw. -/
  refused : ∀ before dice, Dice.FirstAbove room free.reached before dice →
    capped.outcome = .error .tooManyRolls ∧
    capped.reached = before ++ [dice] ∧
    capped.calls <+: free.calls ∧
    capped.state.source.asked = tray.source.asked ++ before.flatMap Dice.plan ∧
    capped.state.source.draws <+: free.state.source.draws

namespace Dice.FirstAbove

variable {room : Nat} {throws reached before : List Dice} {dice other : Dice}

theorem head (sound : dice.defect? = none) (above : room < dice.thrown.toNat) :
    Dice.FirstAbove room (dice :: reached) [] dice where
  place := ⟨reached, rfl⟩
  sound := sound
  within := Nat.zero_le _
  above := by simpa using above

theorem mem (first : Dice.FirstAbove room reached before dice) : dice ∈ reached := by
  obtain ⟨after, rfl⟩ := first.place
  simp

/-- The dice reached are too many for the room. -/
theorem lt_thrownInAll (first : Dice.FirstAbove room reached before dice) :
    room < Dice.thrownInAll reached := by
  obtain ⟨⟨after, rfl⟩, _, _, above⟩ := first
  rw [Dice.thrownInAll_append, Dice.thrownInAll_cons]
  omega

/-- Dice for which there is no room are the first above it. -/
theorem eq_head (first : Dice.FirstAbove room (dice :: reached) before other)
    (above : room < dice.thrown.toNat) : before = [] ∧ other = dice := by
  obtain ⟨⟨after, place⟩, _, within, _⟩ := first
  cases before with
  | nil => exact ⟨rfl, (List.cons.inj place).1.symm⟩
  | cons next later =>
      rw [List.cons_append] at place
      rw [← (List.cons.inj place).1, Dice.thrownInAll_cons] at within
      omega

/-- Dice for which there is room are passed over, and they take room. -/
theorem of_cons (first : Dice.FirstAbove room (dice :: reached) before other)
    (fits : dice.thrown.toNat ≤ room) :
    ∃ later, before = dice :: later ∧
      Dice.FirstAbove (room - dice.thrown.toNat) reached later other := by
  obtain ⟨⟨after, place⟩, sound, within, above⟩ := first
  cases before with
  | nil =>
      obtain ⟨rfl, _⟩ := List.cons.inj place
      simp only [Dice.thrownInAll_nil] at above
      omega
  | cons next later =>
      rw [List.cons_append] at place
      obtain ⟨rfl, rest⟩ := List.cons.inj place
      rw [Dice.thrownInAll_cons] at within above
      exact ⟨later, rfl, ⟨after, rest⟩, sound, by omega, by omega⟩

theorem of_append (first : Dice.FirstAbove room (throws ++ reached) before other)
    (fit : Dice.thrownInAll throws ≤ room) :
    ∃ later, before = throws ++ later ∧
      Dice.FirstAbove (room - Dice.thrownInAll throws) reached later other := by
  induction throws generalizing room before with
  | nil => exact ⟨before, rfl, first⟩
  | cons dice throws induction =>
      rw [Dice.thrownInAll_cons] at fit
      obtain ⟨later, rfl, firstLater⟩ := first.of_cons (by omega)
      obtain ⟨last, rfl, firstLast⟩ := induction firstLater (by omega)
      rw [Nat.sub_sub] at firstLast
      exact ⟨last, rfl, firstLast⟩

theorem append (first : Dice.FirstAbove (room - Dice.thrownInAll throws) reached before other)
    (fit : Dice.thrownInAll throws ≤ room) :
    Dice.FirstAbove room (throws ++ reached) (throws ++ before) other := by
  obtain ⟨⟨after, rfl⟩, sound, within, above⟩ := first
  refine ⟨⟨after, by rw [List.append_assoc]⟩, sound, ?_, ?_⟩
  all_goals
    rw [Dice.thrownInAll_append]
    omega

end Dice.FirstAbove

section Steps

variable [Roller σ] {limit : Nat} {tray : Tray σ} {dice : Dice}

/-- Sound dice above the cap are refused before they are drawn. -/
theorem Dice.run_throwAll_of_above (sound : dice.defect? = none)
    (above : limit < tray.counted + dice.thrown.toNat) :
    ∃ counted, (dice.throwAll (some limit)).run tray =
      (.error .tooManyRolls, { tray with counted }) := by
  rw [Dice.run_throwAll_of_sound sound, run_bind, Tray.run_charge]
  by_cases wide : 2 ^ 64 ≤ tray.counted + dice.thrown.toNat
  · exact ⟨tray.counted, by rw [if_pos wide]⟩
  · refine ⟨tray.counted + dice.thrown.toNat, ?_⟩
    have refused : Cap.check (some limit) (tray.counted + dice.thrown.toNat)
        (fun _ => .tooManyRolls) = .error .tooManyRolls :=
      Cap.check_eq_error_iff.mpr ⟨limit, rfl, above, rfl⟩
    rw [if_neg wide, refused]

/-- A throw within the cap goes as a free one. -/
theorem Dice.run_throwAll_of_within
    (within : dice.defect? = none → tray.counted + dice.thrown.toNat ≤ limit) :
    (dice.throwAll (some limit)).run tray = (dice.throwAll none).run tray := by
  cases judged : dice.defect? with
  | some defect =>
      rw [Dice.run_throwAll_of_unsound judged, Dice.run_throwAll_of_unsound judged]
  | none =>
      have passed : Cap.check (some limit) (tray.counted + dice.thrown.toNat)
          (fun _ => .tooManyRolls) = .ok () := if_pos (within judged)
      rw [Dice.run_throwAll_of_sound judged, Dice.run_throwAll_of_sound judged,
        run_bind, run_bind, Tray.run_charge, Tray.run_charge, passed]
      rfl

theorem Dice.sound_of_run_throwAll {cap : Cap} {value : Int64} {after : Tray σ}
    (thrown : (dice.throwAll cap).run tray = (.ok value, after)) :
    dice.defect? = none := by
  cases judged : dice.defect? with
  | none => rfl
  | some defect =>
      rw [Dice.run_throwAll_of_unsound judged] at thrown
      cases thrown

end Steps

/-- Rolling, asked for one call at a time. -/
abbrev rollCalls {σ : Type} [Roller σ] (cap : Cap) : Evaluator (Tray σ) EvalFault Int64 :=
  rolling cap

theorem Evaluation.cappedFrom_self {room : Nat} {tray : Tray (Recorded σ)}
    {free : Evaluation (Tray (Recorded σ)) EvalFault Int64 β}
    (none : ∀ before dice, ¬ Dice.FirstAbove room free.reached before dice) :
    free.CappedFrom room tray free where
  same _ := rfl
  refused before dice first := (none before dice first).elim

/-- One more call in front, with the dice that it throws. -/
theorem Evaluation.CappedFrom.cons {room : Nat} {call : Call Int64}
    {tray after : Tray (Recorded σ)}
    {capped free : Evaluation (Tray (Recorded σ)) EvalFault Int64 β}
    (rest : capped.CappedFrom (room - Dice.thrownInAll call.throws) after free)
    (fit : Dice.thrownInAll call.throws ≤ room)
    (asked : after.source.asked =
      tray.source.asked ++ call.throws.flatMap Dice.plan) :
    Evaluation.CappedFrom room tray { capped with calls := call :: capped.calls }
      { free with calls := call :: free.calls } where
  same none := by
    have unchanged : capped = free := rest.same fun before dice first =>
      none (call.throws ++ before) dice (first.append fit)
    rw [unchanged]
  refused before dice first := by
    obtain ⟨later, rfl, firstLater⟩ := Dice.FirstAbove.of_append first fit
    obtain ⟨outcome, reached, calls, drawn, draws⟩ := rest.refused later dice firstLater
    refine ⟨outcome, ?_, (List.cons_prefix_cons).mpr ⟨rfl, calls⟩, ?_, draws⟩
    · simp only [Evaluation.reached] at reached
      simp only [Evaluation.reached, List.flatMap_cons, reached, List.append_assoc]
    · rw [drawn, asked, List.flatMap_append, List.append_assoc]

theorem Evaluation.CappedFrom.of_map {room : Nat} {tray : Tray (Recorded σ)}
    {capped free : Evaluation (Tray (Recorded σ)) EvalFault Int64 β} {change : β → γ}
    (injective : Function.Injective change)
    (mapped : (capped.map change).CappedFrom room tray (free.map change)) :
    capped.CappedFrom room tray free := by
  obtain ⟨calls, outcome, state⟩ := capped
  obtain ⟨freeCalls, freeOutcome, freeState⟩ := free
  constructor
  · intro none
    have same := mapped.same none
    simp only [Evaluation.map, Evaluation.mk.injEq] at same ⊢
    refine ⟨same.1, ?_, same.2.2⟩
    have alike := same.2.1
    cases outcome <;> cases freeOutcome <;> simp_all [Except.map, injective.eq_iff]
  · intro before dice first
    obtain ⟨failed, rest⟩ := mapped.refused before dice first
    refine ⟨?_, rest⟩
    cases outcome with
    | ok value => contradiction
    | error fault => exact congrArg Except.error (Except.error.inj failed)

/-- The first dice for which there is no room end a capped roll. -/
theorem Evaluation.cappedFrom_of_above {room counted : Nat} {dice : Dice}
    {lexeme : String} {more : List (Call Int64)} {tray : Tray (Recorded σ)}
    {free : Evaluation (Tray (Recorded σ)) EvalFault Int64 β}
    (sound : dice.defect? = none) (above : room < dice.thrown.toNat)
    (called : free.calls = .dice dice lexeme :: more)
    (kept : tray.source.draws <+: free.state.source.draws) :
    Evaluation.CappedFrom room tray
      { calls := [.dice dice lexeme], outcome := .error .tooManyRolls,
        state := { tray with counted } } free := by
  have reached : free.reached = dice :: more.flatMap Call.throws := by
    rw [Evaluation.reached, called]
    rfl
  constructor
  · intro none
    rw [reached] at none
    exact (none [] dice (.head sound above)).elim
  · intro before other first
    rw [reached] at first
    obtain ⟨rfl, rfl⟩ := first.eq_head above
    refine ⟨rfl, rfl, ?_, (List.append_nil _).symm, kept⟩
    rw [called]
    exact List.prefix_append _ _

variable [Roller σ]

theorem rollCalls_asks (cap : Cap) (call : Call Int64) :
    Throwing.Asks ((rollCalls cap).answer call : Throwing (Recorded σ) Int64)
      (call.throws.flatMap Dice.plan) (Dice.thrownInAll call.throws) := by
  cases call with
  | constant value => exact .lift (.ok value)
  | dice thrown lexeme =>
      simpa [Call.throws, Evaluator.answer, rolling] using thrown.throwAll_asks cap
  | combine lhs operator rhs => exact .lift (operator.apply lhs rhs)

/-- Whatever is played, what has been drawn stays drawn. -/
theorem Evaluator.draws_prefix_of_play {cap : Cap} {items : List Postfix}
    {values : List Int64} {tray : Tray (Recorded σ)}
    {evaluation : Evaluation (Tray (Recorded σ)) EvalFault Int64 (List Int64)}
    (played : (rollCalls cap).play items values tray = some evaluation) :
    tray.source.draws <+: evaluation.state.source.draws := by
  induction items generalizing values tray evaluation with
  | nil =>
      cases played
      exact List.prefix_rfl
  | cons item items rest =>
      cases asks : item.call? values with
      | none =>
          simp only [Evaluator.play, asks] at played
          contradiction
      | some made =>
          obtain ⟨call, left⟩ := made
          obtain ⟨drawn, added, _⟩ := rollCalls_asks cap call tray
          have started := List.prefix_append tray.source.draws drawn
          rw [← added] at started
          rcases answered : ((rollCalls cap).answer call).run tray with ⟨fault | value, after⟩
          all_goals rw [answered] at started
          · rw [Evaluator.play_cons_of_error asks answered] at played
            cases played
            exact started
          · rw [Evaluator.play_cons_of_ok asks answered] at played
            obtain ⟨later, playedLater, rfl⟩ := Option.map_eq_some_iff.mp played
            have kept := rest playedLater
            exact started.trans kept

/-- A call for which there is room is answered as without a cap. -/
theorem rollCalls_answer_of_within {limit : Nat} {call : Call Int64} {tray : Tray σ}
    (within : ∀ dice ∈ call.throws, dice.defect? = none →
      tray.counted + dice.thrown.toNat ≤ limit) :
    ((rollCalls (some limit)).answer call).run tray =
      ((rollCalls none).answer call).run tray := by
  cases call with
  | constant value => rfl
  | dice thrown lexeme =>
      exact Dice.run_throwAll_of_within (within thrown (List.mem_singleton_self _))
  | combine lhs operator rhs => rfl

section Room

variable {room : Nat} {call : Call Int64}

/-- Dice that were thrown fit in the room if all sound ones do. -/
theorem Call.thrownInAll_le {cap : Cap} {tray after : Tray σ} {value : Int64}
    (fits : ∀ dice ∈ call.throws, dice.defect? = none → dice.thrown.toNat ≤ room)
    (answered : ((rollCalls cap).answer call).run tray = (.ok value, after)) :
    Dice.thrownInAll call.throws ≤ room := by
  cases call with
  | constant value => exact Nat.zero_le _
  | dice thrown lexeme =>
      have sound : thrown.defect? = none := Dice.sound_of_run_throwAll answered
      exact fits thrown (List.mem_singleton_self _) sound
  | combine lhs operator rhs => exact Nat.zero_le _

theorem Call.not_firstAbove
    (fits : ∀ dice ∈ call.throws, dice.defect? = none → dice.thrown.toNat ≤ room)
    (before : List Dice) (dice : Dice) :
    ¬ Dice.FirstAbove room call.throws before dice := by
  intro first
  have among := first.mem
  have fit := fits dice among first.sound
  cases call with
  | constant value => contradiction
  | dice thrown lexeme =>
      cases List.mem_singleton.mp among
      obtain ⟨_, _, later⟩ := first.of_cons fit
      have absurd := later.mem
      contradiction
  | combine lhs operator rhs => contradiction

end Room

/-- Capped and free, the same items are played alike, up to dice above the cap. -/
theorem Evaluator.play_cappedFrom {limit room : Nat} {items : List Postfix}
    {values : List Int64} {tray : Tray (Recorded σ)}
    {free : Evaluation (Tray (Recorded σ)) EvalFault Int64 (List Int64)}
    (counted : tray.counted + room = limit)
    (played : (rollCalls none).play items values tray = some free) :
    ∃ capped, (rollCalls (some limit)).play items values tray = some capped ∧
      capped.CappedFrom room tray free := by
  -- What the count gains with each throw, the room loses.
  induction items generalizing room values tray free with
  | nil =>
      cases played
      refine ⟨_, rfl, Evaluation.cappedFrom_self ?_⟩
      intro before dice first
      have absurd := first.mem
      contradiction
  | cons item items rest =>
      obtain ⟨⟨call, left⟩, asks, _⟩ := Option.bind_eq_some_iff.mp played
      have kept := Evaluator.draws_prefix_of_play played
      by_cases fits : ∀ dice ∈ call.throws,
          dice.defect? = none → dice.thrown.toNat ≤ room
      · have alike : ((rollCalls (some limit)).answer call).run tray =
            ((rollCalls none).answer call).run tray :=
          rollCalls_answer_of_within fun dice among sound => by
            have fit := fits dice among sound
            omega
        rcases answered : ((rollCalls none).answer call).run tray with
          ⟨fault | value, after⟩
        all_goals rw [answered] at alike
        · rw [Evaluator.play_cons_of_error asks answered] at played
          rw [Evaluator.play_cons_of_error asks alike]
          cases played
          refine ⟨_, rfl, Evaluation.cappedFrom_self ?_⟩
          simpa [Evaluation.reached] using Call.not_firstAbove fits
        · rw [Evaluator.play_cons_of_ok asks answered] at played
          rw [Evaluator.play_cons_of_ok asks alike]
          obtain ⟨later, playedLater, rfl⟩ := Option.map_eq_some_iff.mp played
          have fit := Call.thrownInAll_le fits answered
          obtain ⟨asked, counts⟩ := (rollCalls_asks none call).of_ok answered
          have left : after.counted + (room - Dice.thrownInAll call.throws) = limit := by
            omega
          obtain ⟨capped, playedCapped, goes⟩ := rest left playedLater
          rw [playedCapped]
          exact ⟨_, rfl, goes.cons fit asked⟩
      · -- Only dice can lack room, and they are refused.
        cases call with
        | constant value => exact (fits fun _ absurd => by contradiction).elim
        | dice thrown lexeme =>
            obtain ⟨sound, above⟩ :
                thrown.defect? = none ∧ room < thrown.thrown.toNat := by
              simpa [Call.throws] using fits
            obtain ⟨reached, refused⟩ : ∃ reached,
                ((rollCalls (some limit)).answer (.dice thrown lexeme)).run tray =
                  (.error .tooManyRolls, { tray with counted := reached }) :=
              Dice.run_throwAll_of_above sound (by omega)
            obtain ⟨more, called⟩ := Evaluator.calls_of_play_cons asks played
            refine ⟨_, Evaluator.play_cons_of_error asks refused items, ?_⟩
            exact Evaluation.cappedFrom_of_above sound above called kept
        | combine lhs operator rhs => exact (fits fun _ absurd => by contradiction).elim

/-- A capped roll is a free one up to the first dice above the cap. -/
theorem Expression.visit_cappedFrom (expression : Expression) {limit room : Nat}
    {tray : Tray (Recorded σ)} (counted : tray.counted + room = limit) :
    Evaluation.CappedFrom room tray ((rollCalls (some limit)).visit expression tray)
      ((rollCalls none).visit expression tray) := by
  have played : ∀ cap, (rollCalls cap).play expression.postfixOrder [] tray =
      some (((rollCalls cap).visit expression tray).map fun value => [value]) :=
    fun _ => (expression.play_eq_visit (fun _ => rfl) tray).1
  obtain ⟨capped, alike, goes⟩ := Evaluator.play_cappedFrom counted (played none)
  rw [played] at alike
  cases alike
  exact goes.of_map fun left right same => (List.cons.inj same).1

/-- The draws of a roll follow the plan of its expression, and they stop in it only
where the roll fails.  A cap does nothing but end the roll, at the first sound dice
that bring the count above it and before any of them is drawn.  Whatever else a
capped tray is used for, no more is drawn from it than the cap allows. -/
theorem Expression.roll_keeps_plan_and_cap (source : σ) (expression : Expression) :
    let tray : Tray (Recorded σ) := .fresh ⟨source, []⟩
    (∀ cap,
      let (result, after) := expression.rollOn cap tray
      after.source.asked <+: expression.plan ∧
        ∀ value, result = .ok value → after.source.asked = expression.plan) ∧
    (∀ limit,
      let free := (rollCalls none).visit expression tray
      let capped := (rollCalls (some limit)).visit expression tray
      expression.rollOn none tray = (free.outcome, free.state) ∧
      expression.rollOn (some limit) tray = (capped.outcome, capped.state) ∧
      capped.CappedFrom limit tray free) ∧
    ∀ limit requests,
      (tray.serve (some limit) requests).2.source.draws.length ≤ limit := by
  intro tray
  refine ⟨?_, ?_, ?_⟩
  · intro cap
    obtain ⟨drawn, added, planned, _, completed⟩ := expression.interpret_asks cap tray
    have asked : (expression.rollOn cap tray).2.source.asked = drawn.map Prod.fst :=
      congrArg (List.map Prod.fst) added
    rw [← asked] at planned completed
    exact ⟨planned, fun value success => (completed value success).1⟩
  · intro limit
    exact ⟨(expression.play_eq_visit (fun _ => rfl) tray).2,
      (expression.play_eq_visit (fun _ => rfl) tray).2,
      expression.visit_cappedFrom (Nat.zero_add _)⟩
  · intro limit requests
    have covered : tray.Covered limit := ⟨Nat.le_refl _, Nat.zero_le _⟩
    exact (Tray.serve_covered requests covered).allowed

/-- Three dice are thrown in all.  A cap of two refuses the last two, undrawn; a cap
of three refuses nothing, but no throw after the roll. -/
theorem die_plus_dice_refused_above_cap :
    let expression := Expression.combine
      (.term (.atom (.dice (.sum 1 (.numbered 6)) "1d6"))) .add
      (.atom (.dice (.sum 2 (.numbered 4)) "2d4"))
    let tray : Tray (Recorded Prepared) := .fresh ⟨⟨[5, 3, 4]⟩, []⟩
    let free := (rollCalls none).visit expression tray
    let capped := (rollCalls (some 2)).visit expression tray
    let wide := (rollCalls (some 3)).visit expression tray
    (expression.rollOn none tray).1 = .ok 12 ∧
    (expression.rollOn none tray).2.source.asked = [6, 4, 4] ∧
    Dice.FirstAbove 2 free.reached [.sum 1 (.numbered 6)] (.sum 2 (.numbered 4)) ∧
    capped.outcome = .error .tooManyRolls ∧ capped.state.source.asked = [6] ∧
    wide = free ∧
    (tray.serve (some 3) [.roll expression, .throwOnce (.middle .fudge)]).2.source.draws.length
      ≤ 3 := by
  intro expression tray free capped wide
  obtain ⟨plan, cap, served⟩ := expression.roll_keeps_plan_and_cap (Prepared.mk [5, 3, 4])
  have rolled : (expression.rollOn none tray).1 = .ok 12 := by decide +kernel
  have reached : free.reached = [.sum 1 (.numbered 6), .sum 2 (.numbered 4)] := by
    decide +kernel
  have first : Dice.FirstAbove 2 free.reached [.sum 1 (.numbered 6)]
      (.sum 2 (.numbered 4)) :=
    ⟨⟨[], reached⟩, by decide, by decide, by decide⟩
  obtain ⟨refused, _, _, asked, _⟩ := (cap 2).2.2.refused _ _ first
  have within : ∀ before dice, ¬ Dice.FirstAbove 3 free.reached before dice := by
    intro before dice above
    have many := above.lt_thrownInAll
    rw [reached] at many
    contradiction
  exact ⟨rolled, (plan none).2 12 rolled, first, refused, asked, (cap 3).2.2.same within,
    served 3 _⟩

end DiceOdds
