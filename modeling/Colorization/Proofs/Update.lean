import Mathlib.Logic.Function.Basic

/-! Parties that each have things of their own, when one of them goes on. -/
namespace Colorization

/-- What a party goes on to is its own if no other has it. -/
theorem sole_update [DecidableEq κ] (owns : κ → σ → τ → Prop) {states : κ → σ} {state : σ} {key : κ}
    (sole : ∀ one other thing, owns one (states one) thing → owns other (states other) thing → one = other)
    (apart : ∀ other, other ≠ key → ∀ thing, owns key state thing → ¬ owns other (states other) thing)
    (one other : κ) (thing : τ) (isOwn : owns one (Function.update states key state one) thing)
    (isOwn' : owns other (Function.update states key state other) thing) : one = other := by
  by_cases isKey : one = key <;> by_cases isKey' : other = key
  · rw [isKey, isKey']
  · rw [isKey, Function.update_self] at isOwn
    rw [Function.update_of_ne isKey'] at isOwn'
    exact absurd isOwn' (apart other isKey' thing isOwn)
  · rw [Function.update_of_ne isKey] at isOwn
    rw [isKey', Function.update_self] at isOwn'
    exact absurd isOwn (apart one isKey thing isOwn')
  · rw [Function.update_of_ne isKey] at isOwn
    rw [Function.update_of_ne isKey'] at isOwn'
    exact sole one other thing isOwn isOwn'

end Colorization
