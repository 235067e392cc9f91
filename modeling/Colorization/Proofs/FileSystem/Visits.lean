import Colorization.Proofs.FileSystem.Entries

/-! The locations that a walk looks at. What a path leads to depends on nothing else. -/
namespace Colorization.FileSystem

/-- The locations up to the next link, and those behind it as `onLink` tells them. -/
def visits (files : FileSystem) (onLink : Location → List Segment → List Location) :
    Location → List Segment → List Location
  | location, [] => [location]
  | location, segment :: rest =>
    location ::
      match files.node? location with
      | some (.directory _) =>
        if segment = [] ∨ segment = ['.'] then visits files onLink location rest
        else if segment = ['.', '.'] then visits files onLink location.dropLast rest
        else
          let inner := location ++ [String.ofList segment]
          inner ::
            match files.node? inner with
            | none => []
            | some (.link target) =>
              onLink (base location target) (Path.segments target.text.toList ++ rest)
            | some _ => visits files onLink inner rest
      | _ => []

def walkVisits (files : FileSystem) : Nat → Location → List Segment → List Location
  | 0 => files.visits fun _ _ => []
  | links + 1 => files.visits (files.walkVisits links)

/-- The locations that are looked at on the way along a path. -/
def visited (files : FileSystem) (path : Path) : List Location :=
  files.walkVisits maxLinks (files.start path) (Path.segments path.text.toList)

/-- Where the walk was, all is as it was. -/
def AgreeOn (locations : List Location) (before after : FileSystem) : Prop :=
  ∀ location ∈ locations, after.node? location = before.node? location

variable {before after files : FileSystem} {path : Path}

theorem AgreeOn.mono (agree : AgreeOn locations before after)
    (inside : ∀ location ∈ part, location ∈ locations) : AgreeOn part before after :=
  fun location member => agree location (inside location member)

theorem advance_congr {onLink onLink' : Location → List Segment → Except SystemError Place}
    {linkVisits : Location → List Segment → List Location}
    (onward : ∀ location segments, AgreeOn (linkVisits location segments) before after →
      onLink' location segments = onLink location segments)
    (agree : AgreeOn (before.visits linkVisits location segments) before after) :
    after.advance true onLink' location segments = before.advance true onLink location segments := by
  induction segments generalizing location with
  | nil =>
    have here := agree location List.mem_cons_self
    simp only [advance, here]
  | cons segment rest ih =>
    have here := agree location List.mem_cons_self
    simp only [advance, here]
    cases there : before.node? location with
    | none => rfl
    | some node =>
      cases node with
      | file | link | device => rfl
      | directory mode =>
        simp only [visits, there] at agree
        have agree := agree.mono fun _ => List.mem_cons_of_mem _
        by_cases blank : segment = [] ∨ segment = ['.']
        · simp only [if_pos blank] at agree ⊢
          exact ih agree
        by_cases up : segment = ['.', '.']
        · simp only [if_neg blank, if_pos up] at agree ⊢
          exact ih agree
        simp only [if_neg blank, if_neg up] at agree ⊢
        have inner := agree _ List.mem_cons_self
        have agree := agree.mono fun _ => List.mem_cons_of_mem _
        split
        · rfl
        simp only [inner]
        cases thing : before.node? (location ++ [String.ofList segment]) with
        | none => rfl
        | some node =>
          simp only [thing] at agree
          cases node with
          | link target =>
            simp only [Bool.not_true, Bool.and_false, Bool.false_eq_true, if_false]
            exact onward _ _ agree
          | directory | file | device => exact ih agree

theorem walk_congr (agree : AgreeOn (before.walkVisits links location segments) before after) :
    after.walk true links location segments = before.walk true links location segments := by
  induction links generalizing location segments with
  | zero => exact advance_congr (fun _ _ _ => rfl) agree
  | succ links ih => exact advance_congr (fun _ _ agree => ih agree) agree

theorem find_congr (working : after.working = before.working)
    (agree : AgreeOn (before.visited path) before after) : after.find path = before.find path := by
  have walked := walk_congr agree
  have origin : after.start path = before.start path := by simp [start, working]
  simp only [find, place, origin, walked]

/-- The locations behind a link, with so many links left. -/
def visitsAfterLink (files : FileSystem) : Nat → Location → List Segment → List Location
  | 0 => fun _ _ => []
  | links + 1 => files.walkVisits links

theorem walkVisits_eq (files : FileSystem) (links : Nat) :
    files.walkVisits links = files.visits (files.visitsAfterLink links) := by
  cases links <;> rfl

theorem start_mem_visits (files : FileSystem) (onLink : Location → List Segment → List Location)
    (location : Location) (segments : List Segment) :
    location ∈ files.visits onLink location segments := by
  cases segments with
  | nil => exact List.mem_singleton_self _
  | cons => exact List.mem_cons_self

/-- On the way to something there are directories and links, and at last it. -/
theorem Leads.node?_of_visits {start stop : Location} {segments : List Segment}
    (leads : Leads files used start segments stop node) (bound : used ≤ links)
    (member : location ∈ files.walkVisits links start segments) :
    location = stop ∨ (∃ mode, files.node? location = some (.directory mode)) ∨
      ∃ target, files.node? location = some (.link target) := by
  rw [walkVisits_eq] at member
  induction leads generalizing links with
  | here there => exact .inl (by simpa [visits] using member)
  | stay folder blank _ ih =>
    simp only [visits, folder, if_pos blank, List.mem_cons] at member
    rcases member with rfl | member
    · exact .inr (.inl ⟨_, folder⟩)
    · exact ih bound member
  | up folder _ ih =>
    have notBlank : ¬ (['.', '.'] = ([] : Segment) ∨ ['.', '.'] = ['.']) := by simp
    simp only [visits, folder, if_neg notBlank, if_true, List.mem_cons] at member
    rcases member with rfl | member
    · exact .inr (.inl ⟨_, folder⟩)
    · exact ih bound member
  | @down _ _ between _ _ _ _ _ folder named there notLink next ih =>
    have notBlank : ¬ (_ = [] ∨ _ = ['.']) := not_or.mpr ⟨named.notEmpty, named.notHere⟩
    simp only [visits, folder, if_neg notBlank, if_neg named.notUp, there, List.mem_cons] at member
    rcases member with rfl | rfl | member
    · exact .inr (.inl ⟨_, folder⟩)
    · exact ih bound (start_mem_visits ..)
    · refine ih bound ?_
      cases between with
      | link target => exact absurd rfl (notLink target)
      | directory | file | device => exact member
  | follow folder named there next ih =>
    have notBlank : ¬ (_ = [] ∨ _ = ['.']) := not_or.mpr ⟨named.notEmpty, named.notHere⟩
    simp only [visits, folder, if_neg notBlank, if_neg named.notUp, there, List.mem_cons] at member
    rcases member with rfl | rfl | member
    · exact .inr (.inl ⟨_, folder⟩)
    · exact .inr (.inr ⟨_, there⟩)
    · cases links with
      | zero => cases bound
      | succ links =>
        refine ih (Nat.le_of_succ_le_succ bound) ?_
        rw [← walkVisits_eq]
        exact member

/-- On the way to a directory there are directories and links. -/
theorem node?_of_visited (found : files.find path = .ok (folder, .directory mode))
    (member : location ∈ files.visited path) :
    (∃ mode, files.node? location = some (.directory mode)) ∨
      ∃ target, files.node? location = some (.link target) := by
  obtain ⟨-, used, bound, leads⟩ := find_eq_ok_iff.mp found
  rcases leads.node?_of_visits bound member with rfl | there
  · exact .inl ⟨mode, leads.found⟩
  · exact there

end Colorization.FileSystem
