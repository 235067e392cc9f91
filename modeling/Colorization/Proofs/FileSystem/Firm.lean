import Colorization.Proofs.FileSystem.Routes

/-! Changes that leave directories and links as they are: what a path leads to can only change
at the end of its way. -/
namespace Colorization.FileSystem

/-- Directories and links are where they were. -/
structure Firm (before after : FileSystem) : Prop where
  directory : ∀ location mode, before.node? location = some (.directory mode) →
    after.node? location = some (.directory mode)
  link : ∀ location target, before.node? location = some (.link target) →
    after.node? location = some (.link target)
  working : after.working = before.working

variable {before after files : FileSystem} {path : Path} {start middle stop folder : Location}
  {node : Node} {name : Segment} {mode : Nat} {content : Content}

theorem Firm.trans {third : FileSystem} (one : Firm before after) (two : Firm after third) :
    Firm before third :=
  ⟨fun _ _ there => two.directory _ _ (one.directory _ _ there),
    fun _ _ there => two.link _ _ (one.link _ _ there), two.working.trans one.working⟩

theorem Extends.firm (extends' : Extends before after) : Firm before after :=
  ⟨fun _ _ => extends'.node _ _, fun _ _ => extends'.node _ _, extends'.working⟩

theorem Leads.of_firm (firm : Firm before after) (kept : after.node? stop = some node)
    (leads : Leads before used start segments stop node) :
    Leads after used start segments stop node := by
  induction leads with
  | here _ => exact .here kept
  | stay inside blank _ ih => exact .stay (firm.directory _ _ inside) blank (ih kept)
  | up inside _ ih => exact .up (firm.directory _ _ inside) (ih kept)
  | down inside named there notLink next ih =>
    refine .down (firm.directory _ _ inside) named ?_ notLink (ih kept)
    cases next with
    | here there' =>
      cases there.symm.trans there'
      exact kept
    | stay folder | up folder | down folder | follow folder =>
      cases there.symm.trans folder
      exact firm.directory _ _ folder
  | follow inside named there _ ih =>
    exact .follow (firm.directory _ _ inside) named (firm.link _ _ there) (ih kept)

theorem find_of_firm (firm : Firm before after) (found : before.find path = .ok (stop, node))
    (kept : after.node? stop = some node) : after.find path = .ok (stop, node) := by
  obtain ⟨checked, used, bound, leads⟩ := find_eq_ok_iff.mp found
  rw [← start_of_working firm.working] at leads
  exact find_eq_ok_iff.mpr ⟨checked, used, bound, leads.of_firm firm kept⟩

/-- Directories stay what paths lead to. -/
theorem find_directory_of_firm (firm : Firm before after)
    (found : before.find path = .ok (stop, .directory mode)) :
    after.find path = .ok (stop, .directory mode) := by
  obtain ⟨-, _, -, leads⟩ := find_eq_ok_iff.mp found
  exact find_of_firm firm found (firm.directory _ _ leads.found)

theorem firm_of_sameBut_file (same : SameBut location before after)
    (isFile : before.node? location = some (.file mode content)) : Firm before after := by
  have elsewhere : ∀ other node, before.node? other = some node → (∀ mode content, node ≠ .file mode content) →
      after.node? other = some node := by
    intro other node there notFile
    have differs : other ≠ location := by
      rintro rfl
      exact notFile mode content (Option.some.inj (there.symm.trans isFile))
    rw [same.node other differs, there]
  exact ⟨fun other mode there => elsewhere other _ there nofun,
    fun other target there => elsewhere other _ there nofun, same.working⟩

/-- The mode that a file gets when it takes the place of something. -/
def modeAfter : Except SystemError Stat → Nat
  | .ok ⟨.file, mode, _⟩ => mode
  | _ => fileMode

/-- The mode of the regular file that a path leads to; without one, that of files that are made. -/
def modeAt (files : FileSystem) (path : Path) : Nat := modeAfter (files.stat path)

theorem modeAt_of_find (found : files.find path = .ok (stop, .file mode content)) :
    files.modeAt path = mode := by
  rw [modeAt, stat, found]
  rfl

theorem modeAt_of_not_find (absent : files.find path = .error error) : files.modeAt path = fileMode := by
  rw [modeAt, stat, absent]
  rfl

/-- A new file that has the mode of files that are made makes no difference. -/
theorem Drafts.modeAt (drafts : Drafts before files temporary fileMode content) (path : Path) :
    files.modeAt path = before.modeAt path := by
  obtain ⟨location, free, rfl, file⟩ := drafts
  have firm := firm_of_sameBut_file (sameBut_set before location (.file fileMode content)).symm file.there
  have more := extends_set free (.file fileMode content)
  rcases there : before.find path with error | place
  · rcases found : FileSystem.find (before.set location (.file fileMode content)) path with error | ⟨stop, node⟩
    · rw [modeAt_of_not_find found, modeAt_of_not_find there]
    · obtain ⟨-, _, -, leads⟩ := find_eq_ok_iff.mp found
      by_cases isNew : stop = location
      · subst isNew
        cases leads.found.symm.trans file.there
        rw [modeAt_of_find found, modeAt_of_not_find there]
      · have kept := (node?_set_of_ne isNew (.file fileMode content)).symm.trans leads.found
        cases (find_of_firm firm found kept).symm.trans there
  · rw [FileSystem.modeAt, FileSystem.modeAt, stat, stat, there, find_of_extends more there]

/-- The entry of a path that ends with a name in a directory. -/
theorem entry?_of_endsIn (ends : EndsIn files path folder name slash) (plain : Path.Plain name) :
    files.entry? path = do
      check path
      if isTooLong (String.ofList name) then throw .nameTooLong
      return some ⟨folder ++ [String.ofList name], slash⟩ := by
  obtain ⟨before, blanks, used, mode, text, empty, rfl, bound, leads⟩ := ends
  have walked := leads.walk bound
  have notDots : ¬ (name = ['.'] ∨ name = ['.', '.']) := by simp [plain.notHere, plain.notUp]
  simp only [ entry?, text, dropWhile_reverse_append before plain.notEmpty empty, List.reverse_reverse,
    head?_reverse_append plain.notEmpty empty]
  cases check path with
  | error => rfl
  | ok =>
    simp only [walked, bind, Except.bind, if_neg notDots]
    split <;> rfl

end Colorization.FileSystem
