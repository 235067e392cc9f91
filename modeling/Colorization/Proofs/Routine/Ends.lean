import Colorization.Batch
import Colorization.Proofs.Routine.Interleaving

/-! How a program ends, taken apart at its binds. -/
namespace Colorization

variable {host : Host} {before after : World}

namespace Program

theorem ends_done_iff : (Program.done value).Ends host before result after ↔
    result = some value ∧ after = before := by
  constructor
  · rintro ⟨⟩
    exact ⟨rfl, rfl⟩
  · rintro ⟨rfl, rfl⟩
    exact .done

theorem ends_act_iff {routine : Routine β} {next : β → Program α} :
    (Program.act routine next).Ends host before result after ↔
      (∃ answer middle, routine.run host before = (some answer, middle) ∧
        (next answer).Ends host middle result after) ∨
      (result = none ∧ routine.run host before = (none, after)) := by
  constructor
  · intro ends
    cases ends with
    | act ran rest => exact .inl ⟨_, _, ran, rest⟩
    | panic ran => exact .inr ⟨rfl, ran⟩
  · rintro (⟨answer, middle, ran, rest⟩ | ⟨rfl, ran⟩)
    · exact .act ran rest
    · exact .panic ran

/-- A routine that does not panic. -/
theorem ends_act_of_run {routine : Routine β} {next : β → Program α}
    (ran : routine.run host before = (some answer, middle)) :
    (Program.act routine next).Ends host before result after ↔
      (next answer).Ends host middle result after := by
  simp [ends_act_iff, ran]

theorem ends_bind_iff {program : Program α} {next : α → Program β} :
    (program >>= next).Ends host before result after ↔
      (∃ value middle, program.Ends host before (some value) middle ∧
        (next value).Ends host middle result after) ∨
      (result = none ∧ program.Ends host before none after) := by
  induction program generalizing before with
  | done value => simp [ends_done_iff]
  | act routine rest ih =>
    simp only [act_bind, ends_act_iff, ih, true_and, reduceCtorEq, false_and, or_false]
    constructor
    · rintro (⟨answer, middle, ran, ⟨value, stopped, ends, onward⟩ | ⟨rfl, ends⟩⟩ | ⟨rfl, ran⟩)
      · exact .inl ⟨value, stopped, ⟨answer, middle, ran, ends⟩, onward⟩
      · exact .inr ⟨rfl, .inl ⟨answer, middle, ran, ends⟩⟩
      · exact .inr ⟨rfl, .inr ran⟩
    · rintro (⟨value, stopped, ⟨answer, middle, ran, ends⟩, onward⟩ |
        ⟨rfl, ⟨answer, middle, ran, ends⟩ | ran⟩)
      · exact .inl ⟨answer, middle, ran, .inl ⟨value, stopped, ends, onward⟩⟩
      · exact .inl ⟨answer, middle, ran, .inr ⟨rfl, ends⟩⟩
      · exact .inr ⟨rfl, ran⟩
  | fanOut paths work rest ih =>
    rw [fanOut_bind]
    constructor
    · rintro ⟨⟩
      next gathers onward =>
        rcases (ih _).mp onward with ⟨value, stopped, ends, onward⟩ | ⟨rfl, ends⟩
        · exact .inl ⟨value, stopped, .fanOut gathers ends, onward⟩
        · exact .inr ⟨rfl, .fanOut gathers ends⟩
    · rintro (⟨value, stopped, ⟨⟩, onward⟩ | ⟨rfl, ⟨⟩⟩)
      next gathers ends => exact .fanOut gathers ((ih _).mpr (.inl ⟨value, stopped, ends, onward⟩))
      next gathers ends => exact .fanOut gathers ((ih _).mpr (.inr ⟨rfl, ends⟩))

/-- An error ends all of it. -/
theorem ends_except_bind_iff {undertaking : ExceptT ε Program α} {next : α → ExceptT ε Program β} :
    (undertaking >>= next).run.Ends host before result after ↔
      (∃ value middle, undertaking.run.Ends host before (some (.ok value)) middle ∧
        (next value).run.Ends host middle result after) ∨
      (∃ error, result = some (.error error) ∧
        undertaking.run.Ends host before (some (.error error)) after) ∨
      (result = none ∧ undertaking.run.Ends host before none after) := by
  rw [ExceptT.run_bind, ends_bind_iff]
  constructor
  · rintro (⟨error | value, middle, ends, onward⟩ | stopped)
    · obtain ⟨rfl, rfl⟩ := ends_done_iff.mp onward
      exact .inr (.inl ⟨error, rfl, ends⟩)
    · exact .inl ⟨value, middle, ends, onward⟩
    · exact .inr (.inr stopped)
  · rintro (⟨value, middle, ends, onward⟩ | ⟨error, rfl, ends⟩ | stopped)
    · exact .inl ⟨.ok value, middle, ends, onward⟩
    · exact .inl ⟨.error error, after, ends, .done⟩
    · exact .inr stopped

theorem ends_lift_bind_iff {program : Program α} {next : α → ExceptT ε Program β} :
    ((liftM program : ExceptT ε Program α) >>= next).run.Ends host before result after ↔
      (∃ value middle, program.Ends host before (some value) middle ∧
        (next value).run.Ends host middle result after) ∨
      (result = none ∧ program.Ends host before none after) := by
  have lifted : (liftM program : ExceptT ε Program α) = ExceptT.lift program := rfl
  rw [lifted, ExceptT.run_bind_lift, ends_bind_iff]

end Program

/-- An undertaking that is an action ends as the action does. -/
theorem Action.ends_undertake_iff {action : Action α} :
    action.undertake.run.Ends host before result after ↔ action.run.run host before = (result, after) := by
  rw [Action.undertake, ExceptT.run_mk, Program.ends_act_iff]
  rcases ran : action.run.run host before with ⟨_ | ended, stopped⟩
  · simp [eq_comm]
  · simp [Program.ends_done_iff, eq_comm, and_comm]

end Colorization
