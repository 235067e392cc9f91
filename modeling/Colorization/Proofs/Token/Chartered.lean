import Colorization.Proofs.Token.Saving

/-! A save keeps to the charter of its writers at every step, and has no temporary file in the end. -/
namespace Colorization

namespace FileSystem.Charter

variable {charter : Charter} {host : Host} {key : Nat} {path : Path}
  {α β : Type}

/-- What is known of the temporary file does not matter to the charter. -/
theorem saving (first : charter.alone → key = 0) (owned : charter.paths path) :
    Saving charter.Followed key path none (fun draft _ => some draft) (fun _ => none) where
  makeDirectories followed made := followed.makeDirectories made
  createTemporary := by
    rintro hands files temporary after ⟨base, kept⟩ mine created
    obtain ⟨draft, isFile, kept⟩ := kept.createTemporary first mine owned created
    exact ⟨draft, isFile, base, kept⟩
  setMode := by
    rintro hands files draft mode after ⟨base, kept⟩ mine set
    exact kept_unmoved ⟨base, kept.setMode first mine set⟩ mine
  overwrite := by
    rintro hands files draft bytes after ⟨base, kept⟩ mine filled _ -
    exact kept_unmoved ⟨base, kept.overwrite first mine filled⟩ mine
  rename := by
    rintro hands files draft bytes after ⟨base, kept⟩ mine renamed
    exact ⟨base, kept.rename first mine owned renamed⟩
  remove := by
    rintro hands files draft _ ⟨base, kept⟩ mine
    exact ⟨base, kept.remove first mine⟩

/-- The action keeps to the charter, and has no temporary file in the end. -/
def Abides (charter : Charter) (host : Host) (key : Nat) (action : Action α) : Prop :=
  action.run.Keeps host charter.Followed key (fun _ hand => hand = none) none

theorem Abides.bind {action : Action α} {next : α → Action β} (abides : charter.Abides host key action)
    (onward : ∀ value, charter.Abides host key (next value)) : charter.Abides host key (action >>= next) := by
  refine Action.keeps_bind (abides.mono ?_)
  rintro (_ | failure | value) _ rfl
  · rfl
  · rfl
  · exact onward value

theorem abides_of_still {action : Action α} (still : action.Still) : charter.Abides host key action :=
  still.keeps fun _ => rfl

/-- A save among others, whichever way it ends. -/
theorem abides_save (first : charter.alone → key = 0) (owned : charter.paths path) (capture : Capture)
    (format : Format) : charter.Abides host key (capture.save path format) := by
  refine ((saving first owned).keeps_save capture format).mono ?_
  rintro _ _ (⟨-, rfl⟩ | ⟨-, rfl⟩)
  all_goals rfl

/-- Also a run by itself keeps to the charter. -/
theorem Followed.run {action : Action α} {before after : World} (abides : charter.Abides host 0 action)
    (followed : charter.Followed (fun _ => none) before.files)
    (ran : action.run.run host before = (result, after)) : charter.Followed (fun _ => none) after.files := by
  have keeps : action.run.Keeps host charter.Followed 0 (fun _ hand => hand = none) none := abides
  obtain ⟨hand, kept, rfl⟩ := keeps.run followed
  have unmoved : Function.update (fun _ : Nat => (none : Option Draft)) 0 none = fun _ => none :=
    Function.update_eq_self ..
  rwa [unmoved, ran] at kept

/-- Groups of workers, of which none has more than one worker if that is promised. -/
theorem Followed.gathers {work : Path → Action α} {before after : World} {parts : List (List Path)}
    (gathers : host.Gathers work parts before results after)
    (single : charter.alone → ∀ group ∈ parts, group.length ≤ 1)
    (abides : ∀ path ∈ parts.flatten, ∀ key, (charter.alone → key = 0) → charter.Abides host key (work path))
    (followed : charter.Followed (fun _ => none) before.files) :
    charter.Followed (fun _ => none) after.files := by
  refine gathers.keeps_idle (fun group isGroup path member key less => ?_) followed
  refine abides path (List.mem_flatten.mpr ⟨group, isGroup, member⟩) key fun alone => ?_
  have few := single alone group isGroup
  omega

end FileSystem.Charter

end Colorization
