import Colorization.Proofs.FileSystem.Entries
import Colorization.Proofs.FileSystem.Tree

/-! Walks that cannot go on: whatever else is behind them in the path, they are refused for the same
reason. -/
namespace Colorization.FileSystem

variable {files : FileSystem} {path : Path} {location : Location} {segment : Segment} {node : Node}

/-- Why a walk that has come so far cannot go on. -/
def stuck? : Except SystemError Place → Option SystemError
  | .error error => some error
  | .ok (.free _ _) => some .noEntry
  | .ok (.node _ (.directory _)) => none
  | .ok (.node _ _) => some .notDirectory

theorem stuck?_eq_none_iff {place : Except SystemError Place} :
    stuck? place = none ↔ ∃ folder mode, place = .ok (.node folder (.directory mode)) := by
  rcases place with error | ⟨location, node⟩ | ⟨location, slash⟩
  · simp [stuck?]
  · cases node <;> simp [stuck?]
  · simp [stuck?]

theorem exists_node?_base (inside : files.node? location = some node) (target : Path) :
    ∃ node, files.node? (base location target) = some node := by
  unfold base
  split
  · exact ⟨_, rfl⟩
  · exact ⟨_, inside⟩

theorem advance_of_not_directory (there : files.node? location = some node)
    (notFolder : ∀ mode, node ≠ .directory mode)
    (onLink : Location → List Segment → Except SystemError Place) (segment : Segment) (rest : List Segment) :
    files.advance true onLink location (segment :: rest) = .error .notDirectory := by
  simp only [advance, there]
  split
  next mode folder => exact absurd (Option.some.inj folder) (notFolder mode)
  next => rfl

/-- What a segment can be to a walk: it leads to what is there, in one step or through a link, or nothing
behind it makes a difference. -/
inductive Stride (files : FileSystem) (location : Location) (segment : Segment) : Prop where
  | on {next : Location} {node : Node} (there : files.node? next = some node) : (∀ onLink rest,
      files.advance true onLink location (segment :: rest) = files.advance true onLink next rest) →
      Stride files location segment
  | follow {next : Location} {node : Node} {target : List Segment} (there : files.node? next = some node) :
      (∀ onLink rest, files.advance true onLink location (segment :: rest) = onLink next (target ++ rest)) →
      Stride files location segment
  | halt (error : SystemError) :
      (∀ onLink rest, stuck? (files.advance true onLink location (segment :: rest)) = some error) →
      (∀ onLink rest, rest.all (·.isEmpty) = false →
        files.advance true onLink location (segment :: rest) = .error error) →
      Stride files location segment

theorem stride_of_named (folder : files.node? location = some (.directory mode)) (named : Named segment) :
    Stride files location segment := by
  cases isThere : files.node? (location ++ [String.ofList segment]) with
  | none =>
    have plain : ¬ (segment = [] ∨ segment = ['.']) := not_or.mpr ⟨named.notEmpty, named.notHere⟩
    refine .halt .noEntry (fun onLink rest => ?_) (fun onLink rest more => ?_)
    all_goals simp only [advance, folder, if_neg plain, if_neg named.notUp, named.short, isThere]
    · cases rest.all (·.isEmpty) <;> rfl
    · rw [more]
      rfl
  | some found =>
    by_cases link : ∃ target, found = .link target
    · obtain ⟨target, rfl⟩ := link
      obtain ⟨_, begins⟩ := exists_node?_base folder target
      exact .follow begins fun _ _ => advance_follow folder named isThere
    · exact .on isThere fun _ _ => advance_down folder named isThere fun target same => link ⟨target, same⟩

theorem stride (nested : files.Nested) (there : files.node? location = some node) (segment : Segment) :
    Stride files location segment := by
  by_cases folder : ∃ mode, node = .directory mode
  · obtain ⟨mode, rfl⟩ := folder
    by_cases blank : segment = [] ∨ segment = ['.']
    · exact .on there fun _ _ => advance_stay there blank
    by_cases up : segment = ['.', '.']
    · subst up
      obtain ⟨mode, above⟩ := nested.directory_dropLast there
      exact .on above fun _ _ => advance_up there
    cases long : isTooLong (String.ofList segment) with
    | true =>
      have refused : ∀ onLink rest,
          files.advance true onLink location (segment :: rest) = .error .nameTooLong := by
        intro onLink rest
        simp only [advance, there, if_neg blank, if_neg up, long, if_true]
      exact .halt _ (fun _ _ => congrArg stuck? (refused _ _)) fun _ _ _ => refused _ _
    | false =>
      rw [not_or] at blank
      exact stride_of_named there ⟨blank.1, blank.2, up, long⟩
  · have refused := advance_of_not_directory there fun mode same => folder ⟨mode, same⟩
    exact .halt _ (fun _ _ => congrArg stuck? (refused _ _ _)) fun _ _ _ => refused _ _ _

/-- A walk that cannot go on does not. The outer induction is on the links that are left, the inner one
on the segments. -/
theorem walk_append_of_stuck {start : Location} {node : Node} {first second : List Segment}
    (nested : files.Nested) (there : files.node? start = some node)
    (more : second.all (·.isEmpty) = false)
    (stuck : stuck? (files.walk true links start first) = some error) :
    files.walk true links start (first ++ second) = .error error := by
  induction links using Nat.strongRecOn generalizing start first node with
  | _ links outer =>
  rw [walk_eq_advance] at stuck ⊢
  induction first generalizing start node with
  | nil =>
    obtain ⟨segment, rest, rfl⟩ := List.exists_cons_of_ne_nil (l := second) (by rintro rfl; cases more)
    cases node <;> simp_all [advance, stuck?]
  | cons segment rest inner =>
    have more' : (rest ++ second).all (·.isEmpty) = false := by rw [List.all_append, more, Bool.and_false]
    rw [List.cons_append]
    cases stride nested there segment with
    | on there goes =>
      rw [goes] at stuck ⊢
      exact inner there stuck
    | follow there goes =>
      rw [goes] at stuck ⊢
      cases links with
      | zero => exact congrArg _ (Option.some.inj stuck)
      | succ links =>
        rw [← List.append_assoc]
        exact outer links (Nat.lt_succ_self _) there stuck
    | halt _ refuses ends =>
      cases (refuses _ _).symm.trans stuck
      exact ends _ _ more'

/-- Where the walk to the last segment cannot go on there is no entry. -/
theorem entry?_of_stuck {name : Segment} (checked : check path = .ok ())
    (text : Path.segments path.text.toList = before ++ name :: blanks) (notEmpty : name ≠ [])
    (empty : ∀ blank ∈ blanks, blank = [])
    (stuck : stuck? (files.walk true maxLinks (files.start path) before) = some error) :
    files.entry? path = .error error := by
  unfold entry?
  simp only [checked, text, dropWhile_reverse_append before notEmpty empty, List.reverse_reverse, bind,
    Except.bind]
  split
  next failed =>
    rw [failed] at stuck
    exact congrArg _ (Option.some.inj stuck)
  next place walked =>
    rw [walked] at stuck
    rcases place with ⟨location, node⟩ | ⟨location, slash⟩
    · cases node with
      | directory mode => cases stuck
      | file | link | device => exact congrArg _ (Option.some.inj stuck)
    · exact congrArg _ (Option.some.inj stuck)

/-- A dot at the end of a path is no entry of a directory. -/
theorem entry?_of_dot (checked : check path = .ok ())
    (text : Path.segments path.text.toList = before ++ ['.'] :: blanks)
    (empty : ∀ blank ∈ blanks, blank = [])
    (onward : stuck? (files.walk true maxLinks (files.start path) before) = none) :
    files.entry? path = .ok none := by
  obtain ⟨folder, mode, walked⟩ := stuck?_eq_none_iff.mp onward
  unfold entry?
  simp only [checked, text, dropWhile_reverse_append before (List.cons_ne_nil _ _) empty,
    List.reverse_reverse, walked, bind, Except.bind]
  rfl

end Colorization.FileSystem
