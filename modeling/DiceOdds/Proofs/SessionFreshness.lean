import DiceOdds.Proofs.DrawVectors
import DiceOdds.Session.Desk
import DiceOdds.Session.View

/-!
# Sessions do not go stale

Whatever has been done with a session, its expression is what its text reads as,
and the odds it remembers are those that would be computed now.  Each action keeps
this, for the session at work and for a copy put aside: rolling touches the source
alone, other limits forget the odds, and a computation remembers what it returns
or nothing.
-/

namespace DiceOdds

variable {σ : Type}

/-- All views of a session are read off these odds; without odds they are empty. -/
structure Session.Shows (session : Session σ) (odds : Option Odds) : Prop where
  min : session.min = odds.map Odds.min
  max : session.max = odds.map Odds.max
  bounds : session.bounds = odds.map Odds.bounds
  outcomes : session.outcomes = odds.map Odds.outcomes
  outcomeTexts : session.outcomeTexts = odds.map Odds.outcomeTexts
  permutations : session.permutations = odds.map Odds.permutations
  distribution : session.distribution = odds.map Odds.distribution
  probabilities : session.probabilities = odds.map Odds.probabilities
  probability : ∀ outcome,
    session.probability outcome = odds.map fun odds => odds.probability outcome

/-- What a session promises at any time. -/
structure Session.UpToDate (text : String) (session : Session σ) : Prop where
  text_eq : session.text = text
  parsed : Expression.read session.text = .ok session.expression
  /-- There are no odds, or they are what a computation now gives and keeps. -/
  current : session.odds = none ∨
    ∃ odds, session.odds = some odds ∧ session.calculate = (.ok odds, session)
  shows : session.Shows session.odds
  /-- A computation that fails leaves everything as it was, without odds. -/
  failure : ∀ fault, session.calculate.1 = .error fault →
    session.calculate.2 = session ∧ session.odds = none
  /-- A computation that succeeds leaves its odds behind, and once more it gives
  the same odds and changes nothing. -/
  success : ∀ odds, session.calculate.1 = .ok odds →
    session.calculate.2.odds = some odds ∧
      session.calculate.2.calculate = (.ok odds, session.calculate.2)

/-- The expression belongs to the text, and odds to the expression and the limits. -/
structure Session.Fresh (text : String) (session : Session σ) : Prop where
  text_eq : session.text = text
  parsed : Expression.read session.text = .ok session.expression
  current : ∀ odds, session.odds = some odds →
    session.expression.odds session.limits = .ok odds

theorem Session.shows_odds (session : Session σ) : session.Shows session.odds := by
  constructor <;> intros <;> rfl

theorem Session.calculate_of_ok {session : Session σ} {odds : Odds}
    (computed : session.expression.odds session.limits = .ok odds) :
    session.calculate = (.ok odds, { session with odds := some odds }) := by
  rw [Session.calculate, computed]

theorem Session.calculate_of_error {session : Session σ} {fault : EvalFault}
    (computed : session.expression.odds session.limits = .error fault) :
    session.calculate = (.error fault, session) := by
  rw [Session.calculate, computed]

namespace Session.Fresh

variable {text : String} {session : Session σ}

theorem withSource (fresh : session.Fresh text) (source : σ) :
    ({ session with source } : Session σ).Fresh text :=
  ⟨fresh.text_eq, fresh.parsed, fresh.current⟩

theorem withLimits (fresh : session.Fresh text) (limits : Limits) :
    (session.withLimits limits).Fresh text where
  text_eq := fresh.text_eq
  parsed := fresh.parsed
  current := by
    intro odds absurd
    contradiction

theorem calculate (fresh : session.Fresh text) : session.calculate.2.Fresh text := by
  cases computed : session.expression.odds session.limits with
  | error fault =>
      rw [Session.calculate_of_error computed]
      exact fresh
  | ok odds =>
      rw [Session.calculate_of_ok computed]
      refine ⟨fresh.text_eq, fresh.parsed, ?_⟩
      intro stored same
      rw [← Option.some.inj same]
      exact computed

/-- Odds that are still good are computed again without a change. -/
theorem calculate_eq (fresh : session.Fresh text) {odds : Odds}
    (stored : session.odds = some odds) : session.calculate = (.ok odds, session) := by
  rw [Session.calculate_of_ok (fresh.current odds stored), ← stored]

theorem upToDate (fresh : session.Fresh text) : session.UpToDate text where
  text_eq := fresh.text_eq
  parsed := fresh.parsed
  current := by
    cases stored : session.odds with
    | none => exact .inl rfl
    | some odds => exact .inr ⟨odds, rfl, fresh.calculate_eq stored⟩
  shows := session.shows_odds
  failure := by
    intro fault failed
    cases computed : session.expression.odds session.limits with
    | ok odds =>
        rw [Session.calculate_of_ok computed] at failed
        contradiction
    | error fault =>
        refine ⟨by rw [Session.calculate_of_error computed], ?_⟩
        cases stored : session.odds with
        | none => rfl
        | some odds =>
            rw [fresh.current odds stored] at computed
            contradiction
  success := by
    intro odds succeeded
    cases computed : session.expression.odds session.limits with
    | error fault =>
        rw [Session.calculate_of_error computed] at succeeded
        contradiction
    | ok found =>
        have kept : session.calculate.2.odds = some odds := by
          rw [Session.calculate_of_ok computed] at succeeded ⊢
          exact congrArg some (Except.ok.inj succeeded)
        exact ⟨kept, fresh.calculate.calculate_eq kept⟩

variable [Roller σ]

theorem roll (fresh : session.Fresh text) : session.roll.2.Fresh text :=
  fresh.withSource _

theorem rollMany (fresh : session.Fresh text) (rolls : Nat) :
    (Session.rollMany rolls session).2.Fresh text := by
  induction rolls generalizing session with
  | zero => exact fresh
  | succ rolls more =>
      rw [Session.rollMany]
      rcases rolled : session.roll with ⟨fault | value, after⟩
      all_goals
        have next : after.Fresh text := by
          have moved := fresh.roll
          rwa [rolled] at moved
      · exact next
      · exact more next

end Session.Fresh

/-- Both sessions on a desk are fresh. -/
structure Desk.Fresh (text : String) (desk : Desk σ) : Prop where
  session : desk.session.Fresh text
  aside : ∀ other, desk.aside = some other → other.Fresh text

variable [Roller σ] {text : String}

theorem Desk.Fresh.perform {desk : Desk σ} (fresh : desk.Fresh text) (action : Action) :
    (desk.perform action).2.Fresh text := by
  cases action with
  | setLimits limits => exact ⟨fresh.session.withLimits limits, fresh.aside⟩
  | roll => exact ⟨fresh.session.roll, fresh.aside⟩
  | rollMany rolls => exact ⟨fresh.session.rollMany rolls, fresh.aside⟩
  | calculate => exact ⟨fresh.session.calculate, fresh.aside⟩
  | save =>
      refine ⟨fresh.session, ?_⟩
      intro other same
      cases same
      exact fresh.session
  | swap =>
      rw [Desk.perform]
      cases saved : desk.aside with
      | none => exact fresh
      | some other =>
          refine ⟨fresh.aside other saved, ?_⟩
          intro working same
          cases same
          exact fresh.session

theorem Desk.Fresh.run {desk : Desk σ} (fresh : desk.Fresh text) (actions : List Action) :
    (desk.run actions).2.Fresh text := by
  induction actions generalizing desk with
  | nil => exact fresh
  | cons action actions rest => exact rest (fresh.perform action)

omit [Roller σ] in
theorem Session.start_of_read {expression : Expression}
    (accepted : Expression.read text = .ok expression) (source : σ) :
    Session.start text source =
      .ok { text, expression, limits := .standard, source, odds := none } := by
  rw [Session.start, accepted]
  rfl

omit [Roller σ] in
theorem Desk.fresh_of_start {source : σ} {session : Session σ}
    (started : Session.start text source = .ok session) :
    (Desk.ofSession session).Fresh text := by
  rw [Session.start] at started
  cases accepted : Expression.read text with
  | error fault =>
      rw [accepted] at started
      contradiction
  | ok expression =>
      rw [accepted] at started
      cases started
      refine ⟨⟨rfl, accepted, ?_⟩, ?_⟩
      · intro odds absurd
        contradiction
      · intro other absurd
        contradiction

/-- A text that reads starts a session, and after any actions the session at work
and the one put aside are up to date. -/
theorem Desk.sessions_upToDate {expression : Expression}
    (accepted : Expression.read text = .ok expression) (source : σ) :
    let session : Session σ :=
      { text, expression, limits := .standard, source, odds := none }
    Session.start text source = .ok session ∧
      ∀ actions,
        let desk := ((Desk.ofSession session).run actions).2
        ∀ held, held = desk.session ∨ some held = desk.aside → held.UpToDate text := by
  intro session
  have started : Session.start text source = .ok session := by
    rw [Session.start, accepted]
    rfl
  have fresh : session.Fresh text := by
    refine ⟨rfl, accepted, ?_⟩
    intro odds absurd
    contradiction
  have placed : (Desk.ofSession session).Fresh text := by
    refine ⟨fresh, ?_⟩
    intro other absurd
    contradiction
  refine ⟨started, ?_⟩
  intro actions desk held place
  have kept : desk.Fresh text := placed.run actions
  rcases place with rfl | put
  · exact kept.session.upToDate
  · exact (kept.aside held put.symm).upToDate

/-- Odds are computed and put aside with a copy.  Under tighter limits the session
has none, also after a computation, which fails; the copy still has them. -/
theorem two_dice_upToDate_under_tighter_limits :
    let expression := Expression.ofAtom (.dice (.sum 2 (.numbered 6)) "2d6")
    let session : Session Prepared :=
      { text := "2d6", expression, limits := .standard, source := ⟨[3, 4]⟩, odds := none }
    let tight : Limits := { Limits.standard with maxCombinations := some 10 }
    let desk := ((Desk.ofSession session).run
      [.calculate, .roll, .save, .setLimits tight, .calculate]).2
    Expression.read "2d6" = .ok expression ∧
      Session.start "2d6" (Prepared.mk [3, 4]) = .ok session ∧
      desk.session.bounds = none ∧ desk.aside.bind Session.bounds = some (2, 12) ∧
      ∀ held, held = desk.session ∨ some held = desk.aside → held.UpToDate "2d6" := by
  intro expression session tight desk
  have accepted : Expression.read "2d6" = .ok expression := by
    decide +kernel
  obtain ⟨started, upToDate⟩ := Desk.sessions_upToDate accepted (Prepared.mk [3, 4])
  exact ⟨accepted, started, by decide +kernel, by decide +kernel, upToDate _⟩

end DiceOdds
