/-! What it takes for a result to be one: every part of it is, and what is done with errors
makes no difference. -/
namespace Colorization

variable {f : ε → ε'}

@[simp] theorem mapError_ok (value : α) : (Except.ok value).mapError f = .ok value := rfl

@[simp] theorem mapError_error (error : ε) :
    (Except.error error : Except ε α).mapError f = .error (f error) := rfl

theorem mapError_eq_ok_iff {result : Except ε α} : result.mapError f = .ok value ↔ result = .ok value := by
  cases result <;> simp

theorem bind_eq_ok_iff {result : Except ε α} {next : α → Except ε β} :
    (result >>= next) = .ok value ↔ ∃ middle, result = .ok middle ∧ next middle = .ok value := by
  constructor
  · intro succeeded
    cases result with
    | error error => cases succeeded
    | ok middle => exact ⟨middle, rfl, succeeded⟩
  · rintro ⟨middle, rfl, succeeded⟩
    exact succeeded

/-- It is enough to look at what is left when the errors are dropped. -/
theorem eq_some_ok {ended : Option (Except ε α)} (isEnd : ended.bind Except.toOption = some value) :
    ended = some (.ok value) := by
  rcases ended with _ | _ | _ <;> simp_all [Except.toOption]

end Colorization
