import DiceOdds.Proofs.RollCap

/-!
# The count ahead of the draws

Dice are counted before the first of them is drawn, and what has been counted stays
so when the throw fails.  So a tray counts its draws only while all counted dice are
drawn.  The count gets ahead in two ways: the cap refuses dice after it has counted
them, or a throw overflows before its last die.  It never falls back, and once it is
above the cap nothing is drawn from the tray any more, however little is asked for.
-/

namespace DiceOdds

variable {σ : Type} [Roller σ]

/-- Dice are counted that are not all drawn. -/
inductive Dice.FallsShort (cap : Cap) (dice : Dice) (tray : Tray (Recorded σ)) : Prop where
  | refused {limit : Nat} (sound : dice.defect? = none)
      (countable : tray.counted + dice.thrown.toNat < 2 ^ 64) (capped : cap = some limit)
      (above : limit < tray.counted + dice.thrown.toNat)
  | stopped {after : Tray (Recorded σ)}
      (ran : dice.rollOn cap tray = (.error .overflow, after))
      (left : after.source.draws.length < tray.source.draws.length + dice.thrown.toNat)

/-- The count is so many dice ahead of the draws. -/
def Tray.Ahead (undrawn : Nat) (tray : Tray (Recorded σ)) : Prop :=
  tray.counted = tray.source.draws.length + undrawn

theorem Dice.thrown_positive {dice : Dice} (sound : dice.defect? = none) :
    0 < dice.thrown.toNat := by
  cases dice with
  | sum count faces => exact Dice.count_positive sound
  | middle faces => exact Nat.zero_lt_succ 2

/-- A throw leaves the count as far ahead as it was, or further if the dice fall
short. -/
theorem Dice.rollOn_ahead (cap : Cap) (dice : Dice) {undrawn : Nat}
    {tray : Tray (Recorded σ)} (ahead : tray.Ahead undrawn) :
    ∃ more, (dice.rollOn cap tray).2.Ahead (undrawn + more) ∧
      (more = 0 ↔ ¬ dice.FallsShort cap tray) := by
  have goes := dice.throw_rollOn cap tray
  rcases ran : dice.rollOn cap tray with ⟨result, after⟩
  rw [ran] at goes
  cases goes with
  | unsound judged =>
      refine ⟨0, ahead, ⟨fun _ short => ?_, fun _ => rfl⟩⟩
      cases short with
      | refused sound => rw [sound] at judged; contradiction
      | stopped stops => rw [ran] at stops; cases stops
  | uncountable sound wide =>
      refine ⟨0, ahead, ⟨fun _ short => ?_, fun _ => rfl⟩⟩
      cases short with
      | refused _ countable => exact Nat.not_lt.mpr wide countable
      | stopped stops => rw [ran] at stops; cases stops
  | refused sound countable capped above =>
      have many := Dice.thrown_positive sound
      refine ⟨dice.thrown.toNat, ?_, ⟨fun none => ?_, fun fine => ?_⟩⟩
      · change tray.counted + _ = tray.source.draws.length + _
        rw [ahead, Nat.add_assoc]
      · exact (Nat.ne_of_gt many none).elim
      · exact (fine (.refused sound countable capped above)).elim
  | stopped within counted drawn =>
      obtain ⟨more, left⟩ := Nat.exists_eq_add_of_le drawn
      refine ⟨more, ?_, ⟨?_, ?_⟩⟩
      · change after.counted = after.source.draws.length + _
        rw [counted, ahead]
        omega
      · rintro rfl short
        cases short with
        | refused _ _ capped above => exact Nat.not_lt.mpr (within _ capped) above
        | stopped stops short =>
            rw [ran] at stops
            cases stops
            exact Nat.ne_of_lt short left.symm
      · intro fine
        by_contra some
        exact fine (.stopped ran (by omega))
  | shown within counted drawn =>
      refine ⟨0, ?_, ⟨fun _ short => ?_, fun _ => rfl⟩⟩
      · change after.counted = after.source.draws.length + _
        rw [counted, drawn, ahead, Nat.add_zero, Nat.add_right_comm]
      · cases short with
        | refused _ _ capped above => exact Nat.not_lt.mpr (within _ capped) above
        | stopped stops => rw [ran] at stops; cases stops

/-- Throws dice one after the other, whatever becomes of them. -/
def Tray.throwEach (cap : Cap) (tray : Tray (Recorded σ)) (throws : List Dice) :
    Tray (Recorded σ) :=
  throws.foldl (fun tray dice => (dice.rollOn cap tray).2) tray

/-- Of dice thrown one after the other none are counted and not drawn. -/
def Tray.DrawsAll (cap : Cap) (tray : Tray (Recorded σ)) (throws : List Dice) : Prop :=
  ∀ before dice after, throws = before ++ dice :: after →
    ¬ dice.FallsShort cap (tray.throwEach cap before)

theorem Tray.drawsAll_cons {cap : Cap} {tray : Tray (Recorded σ)} {dice : Dice}
    {throws : List Dice} :
    tray.DrawsAll cap (dice :: throws) ↔
      ¬ dice.FallsShort cap tray ∧ (dice.rollOn cap tray).2.DrawsAll cap throws := by
  constructor
  · intro all
    refine ⟨all [] dice throws rfl, ?_⟩
    intro before other after place
    exact all (dice :: before) other after (congrArg (dice :: ·) place)
  · intro ⟨first, later⟩ before other after place
    cases before with
    | nil =>
        obtain ⟨rfl, _⟩ := List.cons.inj place
        exact first
    | cons next before =>
        obtain ⟨rfl, rest⟩ := List.cons.inj place
        exact later before other after rest

/-- The count only gets further ahead, and it does at the first dice that fall short. -/
theorem Tray.throwEach_ahead (cap : Cap) (throws : List Dice) {undrawn : Nat}
    {tray : Tray (Recorded σ)} (ahead : tray.Ahead undrawn) :
    ∃ more, (tray.throwEach cap throws).Ahead (undrawn + more) ∧
      (more = 0 ↔ tray.DrawsAll cap throws) := by
  induction throws generalizing undrawn tray with
  | nil =>
      refine ⟨0, ahead, ⟨fun _ => ?_, fun _ => rfl⟩⟩
      intro before dice after absurd
      simp at absurd
  | cons dice throws induction =>
      obtain ⟨first, aheadFirst, fine⟩ := dice.rollOn_ahead cap ahead
      obtain ⟨later, aheadLater, fineLater⟩ := induction aheadFirst
      refine ⟨first + later, ?_, ?_⟩
      · rw [← Nat.add_assoc]
        exact aheadLater
      · rw [Tray.drawsAll_cons, ← fine, ← fineLater, Nat.add_eq_zero_iff]

theorem Tray.throwEach_append (cap : Cap) (tray : Tray (Recorded σ))
    (first second : List Dice) :
    tray.throwEach cap (first ++ second) =
      (tray.throwEach cap first).throwEach cap second :=
  List.foldl_append

/-- A call leaves the tray as its dice leave it. -/
theorem rollCalls_throwEach (cap : Cap) (call : Call Int64) (tray : Tray (Recorded σ)) :
    (((rollCalls cap).answer call).run tray).2 = tray.throwEach cap call.throws := by
  cases call with
  | constant value => rfl
  | dice thrown lexeme => rfl
  | combine lhs operator rhs => rfl

theorem Evaluator.throwEach_of_play {cap : Cap} {items : List Postfix}
    {values : List Int64} {tray : Tray (Recorded σ)}
    {evaluation : Evaluation (Tray (Recorded σ)) EvalFault Int64 (List Int64)}
    (played : (rollCalls cap).play items values tray = some evaluation) :
    evaluation.state = tray.throwEach cap evaluation.reached := by
  induction items generalizing values tray evaluation with
  | nil =>
      cases played
      rfl
  | cons item items rest =>
      obtain ⟨⟨call, left⟩, asks, _⟩ := Option.bind_eq_some_iff.mp played
      have thrown := rollCalls_throwEach cap call tray
      rcases answered : ((rollCalls cap).answer call).run tray with ⟨fault | value, after⟩
      all_goals rw [answered] at thrown
      · rw [Evaluator.play_cons_of_error asks answered] at played
        cases played
        simpa [Evaluation.reached] using thrown
      · rw [Evaluator.play_cons_of_ok asks answered] at played
        obtain ⟨later, playedLater, rfl⟩ := Option.map_eq_some_iff.mp played
        calc
          later.state = after.throwEach cap later.reached := rest playedLater
          _ = (tray.throwEach cap call.throws).throwEach cap later.reached := by
              rw [← thrown]
          _ = tray.throwEach cap (call.throws ++ later.reached) :=
              (Tray.throwEach_append cap tray _ _).symm

/-- The dice that a request asks for, up to the first that it cannot throw. -/
def Request.reached (cap : Cap) (tray : Tray (Recorded σ)) : Request → List Dice
  | .roll expression => ((rollCalls cap).visit expression tray).reached
  | .throwOnce dice => [dice]

/-- The dice that requests ask for, one request after another. -/
def Tray.reached (cap : Cap) (tray : Tray (Recorded σ)) : List Request → List Dice
  | [] => []
  | request :: requests =>
      request.reached cap tray ++ (request.rollOn cap tray).2.reached cap requests

theorem Request.rollOn_throwEach (cap : Cap) (request : Request)
    (tray : Tray (Recorded σ)) :
    (request.rollOn cap tray).2 = tray.throwEach cap (request.reached cap tray) := by
  cases request with
  | throwOnce dice => rfl
  | roll expression =>
      have passes : ∀ value,
          (rollCalls cap : Evaluator (Tray (Recorded σ)) EvalFault Int64).group value =
            pure value := fun _ => rfl
      obtain ⟨played, ran⟩ := expression.play_eq_visit passes tray
      exact (congrArg Prod.snd ran).trans (Evaluator.throwEach_of_play played)

/-- Requests leave the tray as the dice that they ask for leave it. -/
theorem Tray.serve_throwEach (cap : Cap) (requests : List Request)
    (tray : Tray (Recorded σ)) :
    (tray.serve cap requests).2 = tray.throwEach cap (tray.reached cap requests) := by
  induction requests generalizing tray with
  | nil => rfl
  | cons request requests induction =>
      rw [Tray.reached, Tray.throwEach_append, ← Request.rollOn_throwEach]
      exact induction _

/-- Refused dice are not drawn.  They are forgotten if they are unsound or could not be
counted, and stay counted otherwise. -/
theorem Dice.rollOn_refused {cap : Cap} {dice : Dice} {tray : Tray (Recorded σ)}
    {fault : EvalFault} (failed : (dice.rollOn cap tray).1 = .error fault)
    (refusal : fault ≠ .overflow) :
    (dice.rollOn cap tray).2.source = tray.source ∧
      ((dice.rollOn cap tray).2 = tray ↔
        dice.defect? ≠ none ∨ 2 ^ 64 ≤ tray.counted + dice.thrown.toNat) := by
  have goes := dice.throw_rollOn cap tray
  rcases ran : dice.rollOn cap tray with ⟨result, after⟩
  rw [ran] at goes failed
  cases goes with
  | unsound judged => exact ⟨rfl, fun _ => .inl (by simp [judged]), fun _ => rfl⟩
  | uncountable sound wide => exact ⟨rfl, fun _ => .inr wide, fun _ => rfl⟩
  | refused sound countable capped above =>
      refine ⟨rfl, fun same => ?_, fun forgotten => ?_⟩
      · have kept : tray.counted + dice.thrown.toNat = tray.counted :=
          congrArg Tray.counted same
        exact (Nat.ne_of_gt (Dice.thrown_positive sound) (Nat.add_eq_left.mp kept)).elim
      · rcases forgotten with unsound | wide
        · exact (unsound sound).elim
        · exact (Nat.not_lt.mpr wide countable).elim
  | stopped => exact (refusal (Except.error.inj failed).symm).elim
  | shown => cases failed

/-- Above the cap a tray counts but draws nothing. -/
theorem Tray.serve_above {limit : Nat} {tray : Tray (Recorded σ)}
    (above : limit < tray.counted) (requests : List Request) :
    (tray.serve (some limit) requests).2.source = tray.source := by
  have leaf : ∀ dice : Dice, Throwing.Keeps
      (fun later => limit < later.counted ∧ later.source = tray.source)
      (dice.throwAll (some limit) : Throwing (Recorded σ) Int64) := by
    intro dice
    apply Dice.throwAll_keeps
    intro later result after goes ⟨exceeded, same⟩
    have wider := Nat.lt_add_right dice.thrown.toNat exceeded
    cases goes with
    | unsound => exact ⟨exceeded, same⟩
    | uncountable => exact ⟨exceeded, same⟩
    | refused => exact ⟨wider, same⟩
    | stopped within => exact (Nat.not_lt.mpr (within limit rfl) wider).elim
    | shown within => exact (Nat.not_lt.mpr (within limit rfl) wider).elim
  exact (Tray.serve_keeps leaf requests ⟨above, rfl⟩).2

/-- Whatever is asked of a fresh tray, it counts its draws exactly as long as no dice
fall short; otherwise it counts more, and for good.  Refused dice are never drawn, but
only those that are unsound or cannot be counted leave the tray as it was.  Once the
cap is exceeded, nothing that is asked for is drawn. -/
theorem Tray.counted_eq_draws_iff (cap : Cap) (source : σ) (requests : List Request) :
    let start : Tray (Recorded σ) := .fresh ⟨source, []⟩
    let after := (start.serve cap requests).2
    (after.counted = after.source.draws.length ↔
      start.DrawsAll cap (start.reached cap requests)) ∧
    after.source.draws.length ≤ after.counted ∧
    (∀ more, after.source.draws.length < after.counted →
      (after.serve cap more).2.source.draws.length < (after.serve cap more).2.counted) ∧
    (∀ (dice : Dice) fault, (dice.rollOn cap after).1 = .error fault → fault ≠ .overflow →
      (dice.rollOn cap after).2.source = after.source ∧
        ((dice.rollOn cap after).2 = after ↔
          dice.defect? ≠ none ∨ 2 ^ 64 ≤ after.counted + dice.thrown.toNat)) ∧
    (∀ limit, cap = some limit → limit < after.counted → ∀ more,
      (after.serve cap more).2.source = after.source) := by
  intro start after
  have fresh : start.Ahead 0 := rfl
  obtain ⟨undrawn, ahead, all⟩ := Tray.throwEach_ahead cap (start.reached cap requests) fresh
  rw [← Tray.serve_throwEach, Nat.zero_add] at ahead
  have counted : after.counted = after.source.draws.length + undrawn := ahead
  refine ⟨?_, ?_, ?_, ?_, ?_⟩
  · rw [counted, Nat.add_eq_left]
    exact all
  · rw [counted]
    exact Nat.le_add_right _ _
  · intro more behind
    obtain ⟨further, aheadMore, _⟩ := Tray.throwEach_ahead cap (after.reached cap more) ahead
    rw [← Tray.serve_throwEach] at aheadMore
    have countedMore : (after.serve cap more).2.counted =
        (after.serve cap more).2.source.draws.length + (undrawn + further) := aheadMore
    omega
  · intro dice fault failed refusal
    exact Dice.rollOn_refused failed refusal
  · intro limit capped above more
    cases capped
    exact Tray.serve_above above more

/-- Under a cap of three, two dice are drawn and five are refused: seven are counted.
The five are refused again, and a single die is not drawn any more. -/
theorem single_die_undrawn_behind_seven :
    let five := Dice.sum 5 (.numbered 6)
    let start : Tray (Recorded Prepared) := .fresh ⟨⟨[4, 2]⟩, []⟩
    let after := (start.serve (some 3)
      [.throwOnce (.sum 2 (.numbered 6)), .throwOnce five]).2
    let later := (after.serve (some 3) [.throwOnce (.sum 1 (.numbered 6))]).2
    after.counted = 7 ∧ after.source.draws = [(6, 4), (6, 2)] ∧
      (five.rollOn (some 3) after).1 = .error .tooManyRolls ∧
      (five.rollOn (some 3) after).2 ≠ after ∧
      later.source.draws.length < later.counted ∧ later.source = after.source := by
  intro five start after later
  obtain ⟨_, _, behind, refused, above⟩ := Tray.counted_eq_draws_iff (some 3)
    (Prepared.mk [4, 2]) [.throwOnce (.sum 2 (.numbered 6)), .throwOnce five]
  have counted : after.counted = 7 := by
    decide +kernel
  have drawn : after.source.draws = [(6, 4), (6, 2)] := by
    decide +kernel
  have failed : (five.rollOn (some 3) after).1 = .error .tooManyRolls := by
    decide +kernel
  have unlike : EvalFault.tooManyRolls ≠ .overflow := by
    decide
  have kept : (five.rollOn (some 3) after).2 ≠ after := by
    intro same
    rcases (refused five .tooManyRolls failed unlike).2.mp same with unsound | wide
    · exact unsound rfl
    · rw [counted] at wide
      contradiction
  have fewer : after.source.draws.length < after.counted := by
    rw [counted, drawn]
    decide
  have exceeded : 3 < after.counted := by
    rw [counted]
    decide
  exact ⟨counted, drawn, failed, kept, behind _ fewer, above 3 rfl exceeded _⟩

/-- Under a cap of three, five dice are refused and stay counted, so that two dice,
which a fresh tray rolls, are refused after them.  Seven dice are counted and none
drawn. -/
theorem two_dice_refused_behind_five :
    let single := fun count lexeme =>
      Request.roll (.ofAtom (.dice (.sum count (.numbered 6)) lexeme))
    let start : Tray (Recorded Prepared) := .fresh ⟨⟨[4, 2]⟩, []⟩
    let served := start.serve (some 3) [single 5 "5d6", single 2 "2d6"]
    served.1 = [.error .tooManyRolls, .error .tooManyRolls] ∧
      served.2.counted = 7 ∧ served.2.source.draws = [] ∧
      (start.serve (some 3) [single 2 "2d6"]).1 = [.ok 6] := by
  decide +kernel

end DiceOdds
