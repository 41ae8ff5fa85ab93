import DiceOdds.Session

/-!
# A desk for sessions

A desk holds the session at work and a copy put aside, each with a source of
draws of its own.  Actions on the desk are done one after another, and each of
them gives a reply.
-/

namespace DiceOdds

/-- A session at work and perhaps another put aside. -/
structure Desk (σ : Type) where
  session : Session σ
  aside : Option (Session σ)

/-- What can be done with the session at work. -/
inductive Action where
  | setLimits (limits : Limits)
  | roll
  | rollMany (rolls : Nat)
  | calculate
  /-- Puts a copy of the session aside. -/
  | save
  /-- Exchanges the session with the one put aside. -/
  | swap
  deriving DecidableEq, Repr

/-- What an action gives. -/
inductive Reply where
  | done
  | rolled (result : Except EvalFault Int64)
  | rolledMany (results : Except EvalFault (List Int64))
  | calculated (result : Except EvalFault Odds)

variable {σ : Type}

def Desk.ofSession (session : Session σ) : Desk σ :=
  { session, aside := none }

variable [Roller σ]

def Desk.perform (desk : Desk σ) : Action → Reply × Desk σ
  | .setLimits limits =>
      (.done, { desk with session := desk.session.withLimits limits })
  | .roll =>
      let (result, session) := desk.session.roll
      (.rolled result, { desk with session })
  | .rollMany rolls =>
      let (results, session) := Session.rollMany rolls desk.session
      (.rolledMany results, { desk with session })
  | .calculate =>
      let (result, session) := desk.session.calculate
      (.calculated result, { desk with session })
  | .save => (.done, { desk with aside := some desk.session })
  | .swap =>
      match desk.aside with
      | none => (.done, desk)
      | some other => (.done, { session := other, aside := some desk.session })

def Desk.run (desk : Desk σ) : List Action → List Reply × Desk σ
  | [] => ([], desk)
  | action :: actions =>
      let (reply, desk) := desk.perform action
      let (replies, desk) := desk.run actions
      (reply :: replies, desk)

end DiceOdds
