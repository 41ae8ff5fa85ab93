import Mathlib.Init

/-!
# Attempts in sequence

An attempt fails or gives a value.  Two attempts in sequence give a value only
if both do, and fail with the fault of the first one that fails.  A state that
attempts share is handed on also by one that fails.
-/

namespace DiceOdds

theorem ok_bind {α β ε : Type} (value : α) (next : α → Except ε β) :
    (Except.ok value >>= next) = next value :=
  rfl

theorem exists_of_isOk {α ε : Type} {attempt : Except ε α} (found : attempt.isOk = true) :
    ∃ value, attempt = .ok value := by
  cases attempt with
  | error fault => contradiction
  | ok value => exact ⟨value, rfl⟩

theorem exists_of_bind_ok {α β ε : Type} {action : Except ε α}
    {next : α → Except ε β} {result : β} (success : action >>= next = .ok result) :
    ∃ value, action = .ok value ∧ next value = .ok result := by
  cases action with
  | error fault => contradiction
  | ok value => exact ⟨value, rfl, success⟩

theorem error_of_bind_error {α β ε : Type} {action : Except ε α}
    {next : α → Except ε β} {fault : ε} (failure : action >>= next = .error fault) :
    action = .error fault ∨
      ∃ value, action = .ok value ∧ next value = .error fault := by
  cases action with
  | error cause =>
      cases failure
      exact .inl rfl
  | ok value => exact .inr ⟨value, rfl, failure⟩

theorem ok_of_mapError_ok {α ε δ : Type} {attempt : Except ε α} {change : ε → δ} {value : α}
    (success : attempt.mapError change = .ok value) : attempt = .ok value := by
  cases attempt with
  | error fault => contradiction
  | ok other =>
      cases success
      rfl

theorem run_bind {σ ε α β : Type} (action : ExceptT ε (StateM σ) α)
    (next : α → ExceptT ε (StateM σ) β) (state : σ) :
    (action >>= next).run state =
      match action.run state with
      | (.ok value, after) => (next value).run after
      | (.error fault, after) => (.error fault, after) := by
  rw [ExceptT.run_bind]
  simp only [bind, StateT.bind]
  rcases action.run state with ⟨result, after⟩
  cases result <;> rfl

theorem run_bind_fst_of_error {σ ε α β : Type} {action : ExceptT ε (StateM σ) α}
    {next : α → ExceptT ε (StateM σ) β} {state : σ} {fault : ε}
    (failed : (action.run state).1 = .error fault) :
    ((action >>= next).run state).1 = .error fault := by
  rw [run_bind]
  rcases ran : action.run state with ⟨cause | value, after⟩
  all_goals rw [ran] at failed
  · cases failed
    rfl
  · contradiction

theorem foldlM_flatMap {α β γ ε : Type} (step : γ → β → Except ε γ)
    (items : List α) (inner : α → List β) (start : γ) :
    (items.flatMap inner).foldlM step start =
      items.foldlM (fun state item => (inner item).foldlM step state) start := by
  induction items generalizing start with
  | nil => rfl
  | cons item items induction =>
      simp only [List.flatMap_cons, List.foldlM_append, List.foldlM_cons,
        induction]

end DiceOdds
