import Colorization.Proofs.Routine.Course
import Colorization.Proofs.Routine.Ends
import Colorization.Proofs.Routine.Still

/-! The requests that a program makes until it ends, in their order. Those of workers are written
down as they come. -/
namespace Colorization

/-- What a routine asks for when it is run without others. -/
def Routine.requests (host : Host) : Routine α → World → List Request
  | .done _, _ => []
  | .panic, _ => []
  | .step request next, world =>
    request :: (next (request.perform host world).1).requests host (request.perform host world).2

/-- Groups of workers and all that they ask for. -/
inductive Host.Collects (host : Host) (work : Path → Action α) :
    List (List Path) → World → List Request → List (Path × Except Failure α) → World → Prop where
  | none : Collects host work [] world [] [] world
  | group : Course host (group.map fun path => (work path).run) before log pool middle →
      List.Forall₂ Routine.Ended pool ends → Collects host work rest middle later results after →
      Collects host work (group :: rest) before (log.map Turn.request ++ later)
        (List.zipWith resultOf group ends ++ results) after

/-- The ways in which a program can end, with all that it asks for on the way. -/
inductive Program.Traces (host : Host) :
    Program α → World → List Request → Option α → World → Prop where
  | done : Traces host (.done value) world [] (some value) world
  | act {routine : Routine β} {next : β → Program α} :
      routine.run host before = (some answer, middle) → Traces host (next answer) middle later result after →
      Traces host (.act routine next) before (routine.requests host before ++ later) result after
  | panic {routine : Routine β} {next : β → Program α} :
      routine.run host before = (none, after) →
      Traces host (.act routine next) before (routine.requests host before) none after
  | fanOut {work : Path → Action β} {next : List (Path × Except Failure β) → Program α} :
      host.Collects work (groups host.helpers paths) before requests results middle →
      Traces host (next results) middle later result after →
      Traces host (.fanOut paths work next) before (requests ++ later) result after

variable {host : Host} {before after : World}

namespace Routine

theorem requests_bind {routine : Routine α} {next : α → Routine β}
    (ran : routine.run host before = (some value, after)) :
    (routine >>= next).requests host before =
      routine.requests host before ++ (next value).requests host after := by
  induction routine generalizing before with
  | done value => cases ran; rfl
  | panic => cases ran
  | step request rest ih => exact congrArg (request :: ·) (ih _ ran)

theorem requests_bind_of_panic {routine : Routine α} {next : α → Routine β}
    (ran : routine.run host before = (none, after)) :
    (routine >>= next).requests host before = routine.requests host before := by
  induction routine generalizing before with
  | done => cases ran
  | panic => rfl
  | step request rest ih => exact congrArg (request :: ·) (ih _ ran)

theorem Still.requests {routine : Routine α} (still : routine.Still) (host : Host) (world : World) :
    ∀ request ∈ routine.requests host world, request.Still := by
  induction routine generalizing world with
  | done | panic => exact List.forall_mem_nil _
  | step request next ih =>
    have later := ih (request.perform host world).1 (still.2 _) (request.perform host world).2
    exact List.forall_mem_cons.mpr ⟨still.1, later⟩

end Routine

/-- What was printed remains. -/
theorem World.printed_of_perform (request : Request) (host : Host) (inside : entry ∈ before.printed) :
    entry ∈ (request.perform host before).2.printed := by
  cases request
  case print => exact List.mem_append_left _ inside
  all_goals
    simp only [Request.perform, look, change, makeDirectories, createTemporary, overwrite, tick]
    repeat' split
    all_goals exact inside

theorem World.printed_of_run {routine : Routine α} (ran : routine.run host before = (result, after))
    (inside : entry ∈ before.printed) : entry ∈ after.printed := by
  induction routine generalizing before with
  | done | panic =>
    cases ran
    exact inside
  | step request next ih =>
    have inside := printed_of_perform request host inside
    exact ih (request.perform host before).1 ran inside

theorem gathers_iff_collects {work : Path → Action α} {parts : List (List Path)} :
    host.Gathers work parts before results after ↔
      ∃ requests, host.Collects work parts before requests results after := by
  constructor
  · intro gathers
    induction gathers with
    | none => exact ⟨[], .none⟩
    | group turns ended _ ih =>
      obtain ⟨log, course⟩ := turns_iff_course.mp turns
      obtain ⟨requests, collects⟩ := ih
      exact ⟨_, .group course ended collects⟩
  · rintro ⟨requests, collects⟩
    induction collects with
    | none => exact .none
    | group course ended _ ih => exact .group (turns_iff_course.mpr ⟨_, course⟩) ended ih

namespace Program

theorem ends_iff_traces {program : Program α} :
    program.Ends host before result after ↔ ∃ requests, program.Traces host before requests result after := by
  constructor
  · intro ends
    induction ends with
    | done => exact ⟨[], .done⟩
    | act ran _ ih =>
      obtain ⟨requests, traces⟩ := ih
      exact ⟨_, .act ran traces⟩
    | panic ran => exact ⟨_, .panic ran⟩
    | fanOut gathers _ ih =>
      obtain ⟨requests, collects⟩ := gathers_iff_collects.mp gathers
      obtain ⟨later, traces⟩ := ih
      exact ⟨_, .fanOut collects traces⟩
  · rintro ⟨requests, traces⟩
    induction traces with
    | done => exact .done
    | act ran _ ih => exact .act ran ih
    | panic ran => exact .panic ran
    | fanOut collects _ ih => exact .fanOut (gathers_iff_collects.mpr ⟨_, collects⟩) ih

theorem Traces.ends {program : Program α} (traces : program.Traces host before requests result after) :
    program.Ends host before result after :=
  ends_iff_traces.mpr ⟨requests, traces⟩

theorem traces_done_iff {value : α} : (Program.done value).Traces host before requests result after ↔
    requests = [] ∧ result = some value ∧ after = before := by
  constructor
  · rintro ⟨⟩
    exact ⟨rfl, rfl, rfl⟩
  · rintro ⟨rfl, rfl, rfl⟩
    exact .done

/-- A routine that does not panic makes its requests first. -/
theorem traces_act_of_run {routine : Routine β} {next : β → Program α}
    (ran : routine.run host before = (some answer, middle)) :
    (Program.act routine next).Traces host before requests result after ↔
      ∃ later, requests = routine.requests host before ++ later ∧
        (next answer).Traces host middle later result after := by
  constructor
  · intro traces
    cases traces with
    | act ran' rest =>
      cases ran.symm.trans ran'
      exact ⟨_, rfl, rest⟩
    | panic ran' => cases ran.symm.trans ran'
  · rintro ⟨later, rfl, rest⟩
    exact .act ran rest

end Program

end Colorization
