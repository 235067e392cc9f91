import Colorization.Colorizer
import Colorization.Proofs.FileSystem.Routes
import Colorization.Proofs.Routine.Returns

/-! A capture is what the tokenizer gives, with the themes that are kept; taking one changes
no file. -/
namespace Colorization

open Colorization.Action (Returns)

/-- The tokens that the tokenizer has for a path. -/
def Tokenizer.Gives (tokenizer : Tokenizer) (host : Host) (files : FileSystem) (path : Path)
    (tokens : Capture) : Prop :=
  match tokenizer with
  | .inProcess => host.tokenize path = .tokens tokens
  | .command program args => ∃ finished,
      host.execute files program (args ++ [path.text]) = .ok finished ∧ finished.capture = .ok tokens

/-- The tokens for a path, with the themes that are kept. -/
def Colorizer.Captures (colorizer : Colorizer) (host : Host) (files : FileSystem) (path : Path)
    (capture : Capture) : Prop :=
  ∃ tokens, colorizer.tokenizer.Gives host files path tokens ∧
    capture = Capture.restrict colorizer.themes tokens

theorem Tokenizer.Gives.unique {tokenizer : Tokenizer} {host : Host} {files : FileSystem} {path : Path}
    (gives : tokenizer.Gives host files path first) (gives' : tokenizer.Gives host files path second) :
    first = second := by
  cases tokenizer with
  | inProcess => exact Reply.tokens.inj (gives.symm.trans gives')
  | command program args =>
    obtain ⟨finished, ended, printed⟩ := gives
    obtain ⟨finished', ended', printed'⟩ := gives'
    cases ended.symm.trans ended'
    exact Except.ok.inj (printed.symm.trans printed')

theorem Colorizer.Captures.unique {colorizer : Colorizer} {host : Host} {files : FileSystem} {path : Path}
    (captures : colorizer.Captures host files path first)
    (captures' : colorizer.Captures host files path second) : first = second := by
  obtain ⟨tokens, gives, rfl⟩ := captures
  obtain ⟨tokens', gives', rfl⟩ := captures'
  rw [gives.unique gives']

variable {host : Host} {before after : World} {path : Path}

/-- A source that is valid is there, and no directory. -/
theorem source_of_validateSource (returned : Returns host (validateSource path) before () after) :
    (∃ answer, before.files.stat path = .ok answer ∧ answer.kind ≠ .directory) ∧
      after.files = before.files := by
  obtain ⟨answer, looked, asked, rest⟩ := Action.returns_bind.mp returned
  have asked : before.look host (fun files => files.stat path) = (answer, looked) :=
    (Action.returns_request (.stat path)).mp asked
  rw [← World.files_of_look asked]
  cases answer with
  | error error => exact absurd rest (Action.not_returns_throw _)
  | ok answer =>
    obtain ⟨-, there, rfl⟩ := World.look_eq_ok_iff.mp asked
    dsimp only at rest
    split at rest
    · exact absurd rest (Action.not_returns_throw _)
    next notFolder =>
      split at rest
      · exact absurd rest (Action.not_returns_throw _)
      obtain ⟨opened, tried, asked, rest⟩ := Action.returns_bind.mp rest
      have asked : before.tick.look host (fun files => (files.find path).map fun _ => ()) = (opened, tried) :=
        (Action.returns_request (.openFile path)).mp asked
      rw [← World.files_of_look asked]
      cases opened with
      | error error => exact absurd rest (Action.not_returns_throw _)
      | ok =>
        obtain ⟨-, rfl⟩ := Action.returns_pure.mp rest
        exact ⟨⟨answer, World.files_of_look asked ▸ there, notFolder⟩, rfl⟩

theorem Tokenizer.gives_of_tokens {tokenizer : Tokenizer} {capture : Capture}
    (returned : Returns host (tokenizer.tokens path) before capture after) :
    tokenizer.Gives host before.files path capture ∧ after.files = before.files := by
  cases tokenizer with
  | inProcess =>
    obtain ⟨reply, asked, tokenized, rest⟩ := Action.returns_bind.mp returned
    have tokenized := (Action.returns_request (.tokenize path)).mp tokenized
    obtain ⟨answered, rfl⟩ := Prod.mk.inj tokenized
    cases reply with
    | tokens given =>
      obtain ⟨rfl, rfl⟩ := Action.returns_pure.mp rest
      exact ⟨answered, rfl⟩
    | failed failure => exact absurd rest (Action.not_returns_throw _)
    | panicked => cases rest
  | command program args =>
    obtain ⟨⟨⟩, told, announced, rest⟩ := Action.returns_bind.mp returned
    obtain ⟨answer, ended, executed, rest⟩ := Action.returns_bind.mp rest
    have announced := (Action.returns_request (.tell (.running program path))).mp announced
    have executed := (Action.returns_request (.execute program (args ++ [path.text]))).mp executed
    obtain ⟨-, rfl⟩ := Prod.mk.inj announced
    obtain ⟨answered, rfl⟩ := Prod.mk.inj executed
    cases answer with
    | error error => exact absurd rest (Action.not_returns_throw _)
    | ok finished =>
      obtain ⟨printed, rfl⟩ := Prod.mk.inj rest
      have printed := mapError_eq_ok_iff.mp (Option.some.inj printed)
      exact ⟨⟨finished, answered, printed⟩, rfl⟩

theorem Colorizer.captures_of_capture {colorizer : Colorizer} {capture : Capture}
    (returned : Returns host (colorizer.capture path) before capture after) :
    colorizer.Captures host before.files path capture ∧ after.files = before.files := by
  obtain ⟨⟨⟩, valid, validated, rest⟩ := Action.returns_bind.mp returned
  obtain ⟨tokens, tokenized, given, rest⟩ := Action.returns_bind.mp rest
  obtain ⟨rfl, rfl⟩ := Action.returns_pure.mp rest
  obtain ⟨gives, unchanged⟩ := Tokenizer.gives_of_tokens given
  have same := (source_of_validateSource validated).2
  rw [same] at gives unchanged
  exact ⟨⟨tokens, gives, rfl⟩, unchanged⟩

theorem Colorizer.named_of_capture {colorizer : Colorizer} {current : Capture} (rooted : before.files.Rooted)
    (returned : Returns host (colorizer.capture path) before current after) :
    ∃ name, path.fileName? = some name := by
  obtain ⟨⟨⟩, valid, validated, -⟩ := Action.returns_bind.mp returned
  obtain ⟨⟨answer, there, notFolder⟩, -⟩ := source_of_validateSource validated
  exact FileSystem.named_of_stat rooted.nested there notFolder

end Colorization
