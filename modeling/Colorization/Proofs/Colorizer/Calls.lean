import Colorization.FileSystem.Setting
import Colorization.Proofs.Snapshot.Policy
import Colorization.Proofs.Snapshot.Stages

/-! Which files a tokenizer is asked about. It is asked once about a file that has passed for a source
and never about one that has not. Directories and large files do not pass; devices and the like do,
although they are no regular files. -/
namespace Colorization

open Colorization.Action (Returns Fails Only only_pure only_throw only_request)

/-- What the path leads to, through all links, is of the kind, no larger than a source may be, and can be
opened. -/
def Readable (host : Host) (before : World) (path : Path) (kind : FileSystem.Kind) : Prop :=
  ∃ stat, before.reply host 0 (fun files => files.stat path) = .ok stat ∧ stat.kind = kind ∧
    stat.size ≤ maxSourceSize ∧
    before.reply host 1 (fun files => (files.find path).map fun _ => ()) = .ok ()

/-- What a tokenizer is asked for with the tokens of a file. -/
def Tokenizer.request (tokenizer : Tokenizer) (path : Path) : Request :=
  match tokenizer with
  | .inProcess => .tokenize path
  | .command program args => .execute program (args ++ [path.text])

def Request.isCall : Request → Bool
  | .tokenize _ | .execute _ _ => true
  | _ => false

/-- The calls of a tokenizer among the requests. -/
def calls (requests : List Request) : List Request := requests.filter Request.isCall

variable {host : Host} {before after : World} {path : Path} {failure : Option Failure}

theorem validSource_iff_readable : ValidSource host before path ↔
    Readable host before path .file ∨ Readable host before path .other := by
  constructor
  · rintro ⟨stat, seen, notFolder, fits, opened⟩
    cases isKind : stat.kind with
    | directory => exact absurd isKind notFolder
    | file => exact .inl ⟨stat, seen, isKind, fits, opened⟩
    | other => exact .inr ⟨stat, seen, isKind, fits, opened⟩
  · rintro (⟨stat, seen, isKind, fits, opened⟩ | ⟨stat, seen, isKind, fits, opened⟩)
    · exact ⟨stat, seen, by simp [isKind], fits, opened⟩
    · exact ⟨stat, seen, by simp [isKind], fits, opened⟩

theorem calls_append (first second : List Request) : calls (first ++ second) = calls first ++ calls second :=
  List.filter_append _ _

theorem calls_eq_nil {requests : List Request} (none : ∀ request ∈ requests, request.isCall = false) :
    calls requests = [] := by
  simpa [calls, List.filter_eq_nil_iff] using none

/-- To look at a file is to call no one. -/
theorem only_validateSource (path : Path) : (validateSource path).Only (·.isCall = false) := by
  refine .bind (only_request rfl) fun answer => ?_
  split
  · exact only_throw _
  split
  · exact only_throw _
  split
  · exact only_throw _
  refine .bind (only_request rfl) fun opened => ?_
  split
  · exact only_throw _
  · exact only_pure _

theorem calls_validateSource (host : Host) (path : Path) (before : World) :
    calls ((validateSource path).run.requests host before) = [] :=
  calls_eq_nil ((only_validateSource path).requests host before)

theorem Tokenizer.calls_tokens (tokenizer : Tokenizer) (host : Host) (path : Path) (before : World) :
    calls ((tokenizer.tokens path).run.requests host before) = [tokenizer.request path] := by
  cases tokenizer with
  | inProcess =>
    have asked : ((Tokenizer.inProcess).tokens path).run.requests host before =
        .tokenize path :: _ := rfl
    rw [asked]
    simp only [Request.perform]
    cases host.tokenize path <;> rfl
  | command program args =>
    have asked : ((Tokenizer.command program args).tokens path).run.requests host before =
        .tell (.running program path) :: .execute program (args ++ [path.text]) :: _ := rfl
    rw [asked]
    simp only [Request.perform]
    cases host.execute before.files program (args ++ [path.text]) <;> rfl

namespace Colorizer

/-- Behind a source that is valid there is the one call, whatever comes of it. -/
theorem calls_of_valid (colorizer : Colorizer) (validated : Returns host (validateSource path) before () after) :
    calls ((colorizer.capture path).run.requests host before) = [colorizer.tokenizer.request path] := by
  have parts : (colorizer.capture path).run.requests host before =
      (validateSource path).run.requests host before ++
        (colorizer.tokenizer.tokens path >>= fun tokens =>
          pure (Capture.restrict colorizer.themes tokens)).run.requests host after :=
    Action.requests_bind_of_returns validated
  rw [parts, calls_append, calls_validateSource, Action.requests_bind_pure, Tokenizer.calls_tokens,
    List.nil_append]

theorem calls_of_invalid (colorizer : Colorizer) (failed : Fails host (validateSource path) before failure after) :
    calls ((colorizer.capture path).run.requests host before) = [] := by
  have parts : (colorizer.capture path).run.requests host before =
      (validateSource path).run.requests host before := Action.requests_bind_of_fails failed
  rw [parts, calls_validateSource]

end Colorizer

/-- A path is a source just if it leads to something but a directory that is not too large and can be
opened; if it is none the failure is of a capture and names it. The tokenizer is asked once about a
source and never about anything else. -/
theorem sources_called_once (host : Host) (before : World) (path : Path) (colorizer : Colorizer) :
    ((∃ after, Returns host (validateSource path) before () after) ↔
      Readable host before path .file ∨ Readable host before path .other) ∧
    ((∃ after, Returns host (validateSource path) before () after) ∧
        calls ((colorizer.capture path).run.requests host before) = [colorizer.tokenizer.request path] ∨
      (∃ fault after, Fails host (validateSource path) before (some (.capture path fault)) after ∧
        Fails host (colorizer.capture path) before (some (.capture path fault)) after) ∧
        calls ((colorizer.capture path).run.requests host before) = []) := by
  refine ⟨returns_validateSource_iff.trans validSource_iff_readable, ?_⟩
  rcases validSource_or_sourceFault host before path with valid | ⟨fault, wrong⟩
  · obtain ⟨after, validated⟩ := returns_validateSource valid
    exact .inl ⟨⟨after, validated⟩, colorizer.calls_of_valid validated⟩
  · obtain ⟨after, failed⟩ := fails_validateSource wrong
    have whole : Fails host (colorizer.capture path) before (some (.capture path fault)) after :=
      Action.fails_bind.mpr (.inl failed)
    exact .inr ⟨⟨fault, after, failed, whole⟩, colorizer.calls_of_invalid failed⟩

/-- The device that holds nothing passes for a source, and a tokenizer is asked about it. -/
theorem device_called : ¬ Readable (.quiet []) (.start .fresh) ⟨"/dev/null"⟩ .file ∧
    (∃ after, Returns (.quiet []) (validateSource ⟨"/dev/null"⟩) (.start .fresh) () after) ∧
    calls (((⟨.inProcess, .pretty, []⟩ : Colorizer).capture ⟨"/dev/null"⟩).run.requests (.quiet [])
      (.start .fresh)) = [.tokenize ⟨"/dev/null"⟩] := by
  have seen : (World.start .fresh).reply (.quiet []) 0 (fun files => files.stat ⟨"/dev/null"⟩) =
      .ok ⟨.other, 0, 0⟩ := rfl
  have passes : Action.returnsWith (.quiet []) (validateSource ⟨"/dev/null"⟩) (.start .fresh)
      (fun _ _ => true) = true := by decide +kernel
  refine ⟨?_, ?_, ?_⟩
  · rintro ⟨stat, same, isFile, -, -⟩
    cases seen.symm.trans same
    cases isFile
  · obtain ⟨⟨⟩, after, validated, -⟩ := Action.returns_of_returnsWith passes
    exact ⟨after, validated⟩
  · obtain ⟨⟨⟩, after, validated, -⟩ := Action.returns_of_returnsWith passes
    exact Colorizer.calls_of_valid _ validated

end Colorization
