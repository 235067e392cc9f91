import Colorization.FileSystem.Walk

/-! Walks as derivations: one rule for each thing that a segment can be, and the number of
links that were followed. A walk of the file system with a bound on links ends at a node
exactly if there is a derivation with no more links. -/
namespace Colorization.FileSystem

/-- A segment that names something in a directory. -/
structure Named (segment : Segment) : Prop where
  notEmpty : segment ≠ []
  notHere : segment ≠ ['.']
  notUp : segment ≠ ['.', '.']
  short : isTooLong (String.ofList segment) = false

/-- Where the target of a link in a directory begins. -/
def base (folder : Location) (target : Path) : Location :=
  if target.isAbsolute then [] else folder

inductive Leads (files : FileSystem) : Nat → Location → List Segment → Location → Node → Prop where
  | here : files.node? location = some node → Leads files 0 location [] location node
  | stay {segment : Segment} : files.node? location = some (.directory mode) →
      segment = [] ∨ segment = ['.'] →
      Leads files used location rest stop node → Leads files used location (segment :: rest) stop node
  | up : files.node? location = some (.directory mode) →
      Leads files used location.dropLast rest stop node →
      Leads files used location (['.', '.'] :: rest) stop node
  | down {segment : Segment} : files.node? location = some (.directory mode) → Named segment →
      files.node? (location ++ [String.ofList segment]) = some found →
      (∀ target, found ≠ .link target) →
      Leads files used (location ++ [String.ofList segment]) rest stop node →
      Leads files used location (segment :: rest) stop node
  | follow {segment : Segment} : files.node? location = some (.directory mode) → Named segment →
      files.node? (location ++ [String.ofList segment]) = some (.link target) →
      Leads files used (base location target) (Path.segments target.text.toList ++ rest) stop node →
      Leads files (used + 1) location (segment :: rest) stop node

/-- How a walk goes on at a link, with so many links left. -/
def afterLink (files : FileSystem) :
    Nat → Location → List Segment → Except SystemError Place
  | 0 => fun _ _ => .error .tooManyLinks
  | links + 1 => files.walk true links

theorem walk_eq_advance (files : FileSystem) (links : Nat) :
    files.walk true links = files.advance true (files.afterLink links) := by
  cases links <;> rfl

section Steps

variable {files : FileSystem} {onLink : Location → List Segment → Except SystemError Place}
  {location : Location} {segment : Segment} {rest : List Segment}

attribute [local simp] advance

theorem advance_stay (folder : files.node? location = some (.directory mode))
    (blank : segment = [] ∨ segment = ['.']) :
    files.advance true onLink location (segment :: rest) =
      files.advance true onLink location rest := by
  simp [folder, blank]

theorem advance_up (folder : files.node? location = some (.directory mode)) :
    files.advance true onLink location (['.', '.'] :: rest) =
      files.advance true onLink location.dropLast rest := by
  simp [folder]

theorem advance_down (folder : files.node? location = some (.directory mode))
    (named : Named segment)
    (there : files.node? (location ++ [String.ofList segment]) = some found)
    (notLink : ∀ target, found ≠ .link target) :
    files.advance true onLink location (segment :: rest) =
      files.advance true onLink (location ++ [String.ofList segment]) rest := by
  have plain : ¬ (segment = [] ∨ segment = ['.']) := by simp [named.notEmpty, named.notHere]
  simp only [advance, folder, if_neg plain, if_neg named.notUp, named.short, there]
  cases found with
  | link target => exact absurd rfl (notLink target)
  | directory | file | device => rfl

theorem advance_follow (folder : files.node? location = some (.directory mode))
    (named : Named segment)
    (there : files.node? (location ++ [String.ofList segment]) = some (.link target)) :
    files.advance true onLink location (segment :: rest) =
      onLink (base location target) (Path.segments target.text.toList ++ rest) := by
  have plain : ¬ (segment = [] ∨ segment = ['.']) := by simp [named.notEmpty, named.notHere]
  simp [folder, plain, named.notUp, named.short, there, base]

end Steps

/-- The outer induction is on the links that are left, the inner one on the segments. -/
theorem leads_of_walk {files : FileSystem} {links : Nat} {location : Location}
    {segments : List Segment}
    (walked : files.walk true links location segments = .ok (.node stop node)) :
    ∃ used ≤ links, Leads files used location segments stop node := by
  induction links using Nat.strongRecOn generalizing location segments with
  | _ links outer =>
  rw [walk_eq_advance] at walked
  induction segments generalizing location with
  | nil =>
    simp only [advance] at walked
    split at walked
    next there =>
      cases walked
      exact ⟨0, Nat.zero_le _, .here there⟩
    next => cases walked
  | cons segment rest inner =>
    simp only [advance] at walked
    split at walked
    next mode folder =>
      split at walked
      next blank =>
        obtain ⟨used, bound, leads⟩ := inner walked
        exact ⟨used, bound, .stay folder blank leads⟩
      split at walked
      next up =>
        obtain ⟨used, bound, leads⟩ := inner walked
        exact ⟨used, bound, up ▸ .up folder leads⟩
      split at walked
      next => cases walked
      next plain notUp short =>
        simp only [not_or] at plain
        have named : Named segment := ⟨plain.1, plain.2, notUp, by simpa using short⟩
        split at walked
        next => split at walked <;> cases walked
        next target there =>
          simp only [Bool.not_true, Bool.and_false, Bool.false_eq_true, if_false] at walked
          cases links with
          | zero => cases walked
          | succ links =>
            obtain ⟨used, bound, leads⟩ := outer links (Nat.lt_succ_self _) walked
            exact ⟨used + 1, Nat.succ_le_succ bound, .follow folder named there leads⟩
        next found notLink there =>
          obtain ⟨used, bound, leads⟩ := inner walked
          exact ⟨used, bound, .down folder named there (fun target same => notLink target same) leads⟩
    next => cases walked

namespace Leads

variable {files : FileSystem} {start stop : Location} {node : Node}

theorem walk {segments : List Segment} (leads : Leads files used start segments stop node)
    (bound : used ≤ links) : files.walk true links start segments = .ok (.node stop node) := by
  induction leads generalizing links with
  | here there => simp only [walk_eq_advance, advance, there]
  | stay folder blank _ ih =>
    rw [walk_eq_advance, advance_stay folder blank, ← walk_eq_advance]
    exact ih bound
  | up folder _ ih =>
    rw [walk_eq_advance, advance_up folder, ← walk_eq_advance]
    exact ih bound
  | down folder named there notLink _ ih =>
    rw [walk_eq_advance, advance_down folder named there notLink, ← walk_eq_advance]
    exact ih bound
  | follow folder named there _ ih =>
    rw [walk_eq_advance, advance_follow folder named there]
    cases links with
    | zero => cases bound
    | succ links => exact ih (Nat.le_of_succ_le_succ bound)

end Leads

theorem walk_eq_ok_iff {files : FileSystem} {links : Nat} {start : Location}
    {segments : List Segment} :
    files.walk true links start segments = .ok (.node stop node) ↔
      ∃ used ≤ links, Leads files used start segments stop node :=
  ⟨leads_of_walk, fun ⟨_, bound, leads⟩ => leads.walk bound⟩

namespace Leads

variable {files : FileSystem} {start middle stop : Location} {node : Node}
  {segments first second : List Segment}

theorem found (leads : Leads files used start segments stop node) :
    files.node? stop = some node := by
  induction leads with
  | here there => exact there
  | stay _ _ _ ih | up _ _ ih | down _ _ _ _ _ ih | follow _ _ _ _ ih => exact ih

/-- Both walks are the walk with the larger bound. -/
theorem unique (leads : Leads files used start segments stop node)
    (other : Leads files used' start segments stop' node') : stop = stop' ∧ node = node' := by
  have one := leads.walk (Nat.le_max_left used used')
  have two := other.walk (Nat.le_max_right used used')
  cases one.symm.trans two
  exact ⟨rfl, rfl⟩

theorem append (leads : Leads files used start first middle node)
    (next : Leads files used' middle second stop node') :
    Leads files (used + used') start (first ++ second) stop node' := by
  induction leads with
  | here => simpa using next
  | stay folder blank _ ih => exact .stay folder blank (ih next)
  | up folder _ ih => exact .up folder (ih next)
  | down folder named there notLink _ ih => exact .down folder named there notLink (ih next)
  | follow folder named there _ ih =>
    have onward := ih next
    rw [List.append_assoc] at onward
    rw [Nat.add_right_comm]
    exact .follow folder named there onward

/-- No segments and then all of them. -/
theorem whole (leads : Leads files used start segments stop node) :
    ∃ used₁ used₂ middle between, used = used₁ + used₂ ∧
      Leads files used₁ start [] middle between ∧ Leads files used₂ middle segments stop node := by
  have origin : ∃ between, files.node? start = some between := by
    cases leads with
    | here there => exact ⟨_, there⟩
    | stay folder | up folder | down folder | follow folder => exact ⟨_, folder⟩
  obtain ⟨between, there⟩ := origin
  exact ⟨0, used, start, between, (Nat.zero_add used).symm, .here there, leads⟩

/-- A walk is one along the first segments and then one along the others. -/
theorem split (leads : Leads files used start (first ++ second) stop node) :
    ∃ used₁ used₂ middle between, used = used₁ + used₂ ∧
      Leads files used₁ start first middle between ∧ Leads files used₂ middle second stop node := by
  generalize joined : first ++ second = segments at leads
  induction leads generalizing first with
  | here there =>
    obtain ⟨rfl, rfl⟩ := List.append_eq_nil_iff.mp joined
    exact (here there).whole
  | stay folder blank next ih =>
    cases first with
    | nil =>
      subst joined
      exact (stay folder blank next).whole
    | cons head tail =>
      cases joined
      obtain ⟨used₁, used₂, middle, between, rfl, one, two⟩ := ih rfl
      exact ⟨used₁, used₂, middle, between, rfl, .stay folder blank one, two⟩
  | up folder next ih =>
    cases first with
    | nil =>
      subst joined
      exact (up folder next).whole
    | cons head tail =>
      cases joined
      obtain ⟨used₁, used₂, middle, between, rfl, one, two⟩ := ih rfl
      exact ⟨used₁, used₂, middle, between, rfl, .up folder one, two⟩
  | down folder named there notLink next ih =>
    cases first with
    | nil =>
      subst joined
      exact (down folder named there notLink next).whole
    | cons head tail =>
      cases joined
      obtain ⟨used₁, used₂, middle, between, rfl, one, two⟩ := ih rfl
      exact ⟨used₁, used₂, middle, between, rfl, .down folder named there notLink one, two⟩
  | follow folder named there next ih =>
    cases first with
    | nil =>
      subst joined
      exact (follow folder named there next).whole
    | cons head tail =>
      cases joined
      obtain ⟨used₁, used₂, middle, between, rfl, one, two⟩ := ih (List.append_assoc ..)
      exact ⟨used₁ + 1, used₂, middle, between, Nat.add_right_comm .., .follow folder named there one,
        two⟩

/-- A walk of any steps begins in a directory. -/
theorem begins {segments : List Segment} (leads : Leads files used start segments stop node)
    (more : segments ≠ []) : ∃ mode, files.node? start = some (.directory mode) := by
  cases leads with
  | here => exact absurd rfl more
  | stay folder | up folder | down folder | follow folder => exact ⟨_, folder⟩

/-- A walk that ends in a directory begins in one. -/
theorem start_directory (leads : Leads files used start segments stop (.directory mode)) :
    ∃ mode', files.node? start = some (.directory mode') := by
  cases leads with
  | here there => exact ⟨_, there⟩
  | stay folder | up folder | down folder | follow folder => exact ⟨_, folder⟩

end Leads

end Colorization.FileSystem
