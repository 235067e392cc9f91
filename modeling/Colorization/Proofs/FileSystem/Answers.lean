import Colorization.Proofs.FileSystem.Firm
import Colorization.Proofs.FileSystem.Made

/-! What is answered where the directory is there: making it again changes nothing, a temporary
file can be made in it, and what becomes of a rename is told by the target alone. -/
namespace Colorization.FileSystem

variable {files after : FileSystem} {path directory target temporary : Path} {folder : Location}

/-- The entry of a path that leads to a directory, if there is one, is taken. -/
theorem makeDirectory_of_find (found : files.find path = .ok (folder, .directory mode)) :
    files.makeDirectory path = .error .alreadyExists := by
  obtain ⟨checked, used, bound, leads⟩ := find_eq_ok_iff.mp found
  cases split : (Path.segments path.text.toList).reverse.dropWhile (·.isEmpty) with
  | nil =>
    have none : files.entry? path = .ok none := by
      simp [ entry?, checked, split, bind, Except.bind, pure, Except.pure]
    simp [makeDirectory, none, bind, Except.bind, throw, throwThe, MonadExceptOf.throw]
  | cons last before =>
    obtain ⟨blanks, text, empty, notEmpty⟩ := dropWhile_reverse_eq_cons split
    rw [text] at leads
    obtain ⟨used₁, used₂, middle, between, rfl, toMiddle, onward⟩ := leads.split
    have inFolder : ∃ mode, between = .directory mode := by
      cases onward with
      | stay inside | up inside | down inside | follow inside =>
        exact ⟨_, Option.some.inj (toMiddle.found.symm.trans inside)⟩
    obtain ⟨mode', rfl⟩ := inFolder
    by_cases dots : last = ['.'] ∨ last = ['.', '.']
    · have none : files.entry? path = .ok none := by
        simp [ entry?, checked, split, toMiddle.walk (show used₁ ≤ maxLinks by omega), dots, bind,
          Except.bind, pure, Except.pure]
      simp [makeDirectory, none, bind, Except.bind, throw, throwThe, MonadExceptOf.throw]
    · rw [not_or] at dots
      have taken : Named last ∧ ∃ node, files.node? (middle ++ [String.ofList last]) = some node := by
        cases onward with
        | stay _ blank => exact absurd blank (by simp [notEmpty, dots])
        | up => exact absurd rfl dots.2
        | down _ named there => exact ⟨named, _, there⟩
        | follow _ named there => exact ⟨named, _, there⟩
      obtain ⟨named, node, there⟩ := taken
      have entered : files.entry? path = .ok (some ⟨_, _⟩) := entry?_eq_ok_iff.mpr ⟨checked, middle, last,
        named, ⟨before.reverse, blanks, used₁, mode', text, empty, rfl, by omega, toMiddle⟩, rfl⟩
      simp [makeDirectory, entered, there, bind, Except.bind, throw, throwThe, MonadExceptOf.throw]

theorem isDirectory_iff : files.isDirectory path = true ↔
    ∃ folder mode, files.find path = .ok (folder, .directory mode) := by
  unfold isDirectory stat
  cases files.find path with
  | error => simp [bind, Except.bind]
  | ok place =>
    obtain ⟨location, node⟩ := place
    cases node <;> simp [bind, Except.bind, pure, Except.pure]

theorem text_ne_of_find (found : files.find path = .ok (folder, node)) : path.text ≠ "" := by
  obtain ⟨checked, -⟩ := find_eq_ok_iff.mp found
  intro empty
  simp [check, empty] at checked

theorem exists_upward (depth : Nat) (path : Path) : ∃ above, upward depth path = path :: above := by
  cases depth with
  | zero => exact ⟨[], rfl⟩
  | succ depth =>
    rw [upward]
    split
    · exact ⟨[], rfl⟩
    · exact ⟨_, rfl⟩

/-- A directory that is there is not made again. -/
theorem makeEach_of_find (found : files.find path = .ok (folder, .directory mode))
    (above : List Path) : files.makeEach (path :: above) = (.ok (), files) := by
  have isThere := isDirectory_iff.mpr ⟨folder, mode, found⟩
  simp [makeEach, text_ne_of_find found, requireDirectory, makeDirectory_of_find found, isThere]

theorem makeDirectories_of_find (found : files.find path = .ok (folder, .directory mode)) :
    files.makeDirectories path = (.ok (), files) := by
  obtain ⟨above, list⟩ := exists_upward path.components.length path
  rw [makeDirectories, list, makeEach_of_find found]

theorem find_of_requireDirectory (required : (files.requireDirectory path).1 = .ok ()) :
    ∃ folder mode, (files.requireDirectory path).2.find path = .ok (folder, .directory mode) := by
  unfold requireDirectory at required ⊢
  split at required
  next made =>
    obtain ⟨folder, name, mode, -, -, -, found⟩ := find_of_makeDirectory made
    exact ⟨_, mode, found⟩
  next error refused =>
    split at required
    next isThere => exact isDirectory_iff.mp isThere
    next => cases required

/-- Where all directories could be made the path leads to one. -/
theorem find_of_makeDirectories (notEmpty : path.text ≠ "")
    (made : (files.makeDirectories path).1 = .ok ()) :
    ∃ folder mode, (files.makeDirectories path).2.find path = .ok (folder, .directory mode) := by
  obtain ⟨above, list⟩ := exists_upward path.components.length path
  have some : path.text.isEmpty = false := by simpa using notEmpty
  unfold makeDirectories at made ⊢
  rw [list, makeEach, some] at made ⊢
  simp only [Bool.false_eq_true, if_false] at made ⊢
  split at made
  next =>
    split at made
    next => cases made
    next => exact find_of_requireDirectory made
  next => exact find_of_requireDirectory made

theorem plain_temporaryName (n : Nat) :
    Path.Plain (".colorsnap-".toList ++ Nat.toDigits 10 n) where
  notEmpty := by simp
  notHere same := by simpa using congrArg List.length same
  notUp same := by simpa using congrArg List.length same
  noSlash := slash_not_mem_temporaryName n

/-- The path of a temporary file in a directory. -/
def temporaryPath (directory : Path) (n : Nat) : Path := directory.join ⟨temporaryName n⟩

/-- A temporary file of this number can be named. -/
def Nameable (directory : Path) (n : Nat) : Prop :=
  check (temporaryPath directory n) = .ok () ∧ isTooLong (temporaryName n) = false

/-- A path that goes on with a name is wrong for the name, or too long. -/
theorem check_join {name : List Char} (checked : check directory = .ok ()) (plain : '/' ∉ name) :
    check (directory.join ⟨String.ofList name⟩) =
      if '\x00' ∈ name then .error .nulInPath
      else if pathLimit ≤ (directory.join ⟨String.ofList name⟩).text.utf8ByteSize then
        .error .nameTooLong
      else .ok () := by
  have within : '\x00' ∉ directory.text.toList := by
    intro member
    simp [check, member] at checked
  have some : directory.text ≠ "" := by
    intro empty
    simp [check, empty] at checked
  have text : ∃ between, '\x00' ∉ between ∧
      (directory.join ⟨String.ofList name⟩).text.toList = directory.text.toList ++ (between ++ name) := by
    rw [Path.join, if_neg (by simp [Path.isAbsolute_of_not_mem plain])]
    split
    · exact ⟨[], by simp, by simp⟩
    · exact ⟨['/'], by decide, by simp⟩
  obtain ⟨between, clean, text⟩ := text
  have notEmpty : (directory.join ⟨String.ofList name⟩).text ≠ "" := by
    intro empty
    rw [empty] at text
    have none := (List.append_eq_nil_iff.mp text.symm).1
    exact some (by simpa using none)
  have nul : '\x00' ∈ (directory.join ⟨String.ofList name⟩).text.toList ↔ '\x00' ∈ name := by
    simp [text, within, clean]
  unfold check
  simp only [List.contains_iff_mem, nul, String.isEmpty_iff, if_neg notEmpty]

/-- A path that goes on with a name of its own is still a path, but may be too long. -/
theorem check_temporaryPath (checked : check directory = .ok ()) (n : Nat) :
    check (temporaryPath directory n) = .ok () ∨
      check (temporaryPath directory n) = .error .nameTooLong := by
  have noNul := not_mem_temporaryName n (show '\x00' ∉ _ by decide) (by decide)
  rw [temporaryPath, temporaryName_eq, check_join checked (slash_not_mem_temporaryName n), if_neg noNul]
  split
  · exact .inr rfl
  · exact .inl rfl

theorem entry?_temporaryPath (found : files.find directory = .ok (folder, .directory mode)) (n : Nat) :
    files.entry? (temporaryPath directory n) = do
      check (temporaryPath directory n)
      if isTooLong (temporaryName n) then throw .nameTooLong
      return some ⟨folder ++ [temporaryName n], false⟩ := by
  have ends := endsIn_join found (slash_not_mem_temporaryName n)
  rw [temporaryPath, temporaryName_eq]
  exact entry?_of_endsIn ends (plain_temporaryName n)

/-- The entry is where the temporary file is, once it could be named. -/
theorem entry?_eq_of_nameable (found : files.find directory = .ok (folder, .directory mode))
    (nameable : Nameable directory n) :
    files.entry? (temporaryPath directory n) = .ok (some ⟨folder ++ [temporaryName n], false⟩) := by
  simp [entry?_temporaryPath found, nameable.1, nameable.2, bind, Except.bind, pure, Except.pure]

theorem createTemporary_eq_ok_iff (found : files.find directory = .ok (folder, .directory mode)) :
    files.createTemporary directory = .ok (temporary, after) ↔
      Nameable directory (files.freeNumber folder) ∧
        temporary = temporaryPath directory (files.freeNumber folder) ∧
        after = files.set (folder ++ [temporaryName (files.freeNumber folder)])
          (.file fileMode (.ofBytes .empty)) := by
  have entered := entry?_temporaryPath found (files.freeNumber folder)
  rw [Nameable]
  unfold temporaryPath at entered ⊢
  simp only [createTemporary, found, bind, Except.bind] at entered ⊢
  rw [entered]
  cases check (directory.join ⟨temporaryName (files.freeNumber folder)⟩) with
  | error => simp
  | ok =>
    cases isTooLong (temporaryName (files.freeNumber folder)) with
    | true => simp [throw, throwThe, MonadExceptOf.throw]
    | false => simp [pure, Except.pure, eq_comm]

/-- Where no temporary file can be made its path or its name is too long. -/
theorem createTemporary_eq_error (found : files.find directory = .ok (folder, .directory mode))
    (refused : files.createTemporary directory = .error error) :
    error = .nameTooLong ∧ ¬ Nameable directory (files.freeNumber folder) := by
  obtain ⟨checked, -⟩ := find_eq_ok_iff.mp found
  have checked' := check_temporaryPath checked (files.freeNumber folder)
  have entered := entry?_temporaryPath found (files.freeNumber folder)
  rw [Nameable]
  unfold temporaryPath at checked' entered ⊢
  simp only [createTemporary, found, bind, Except.bind] at refused
  rw [entered] at refused
  rcases checked' with short | long
  · simp only [short, bind, Except.bind] at refused ⊢
    cases tooLong : isTooLong (temporaryName (files.freeNumber folder)) with
    | true =>
      rw [tooLong] at refused
      cases refused
      exact ⟨rfl, nofun⟩
    | false =>
      rw [tooLong] at refused
      cases refused
  · simp only [long, bind, Except.bind] at refused ⊢
    cases refused
    exact ⟨rfl, nofun⟩

theorem taken_of_lt_freeNumber (less : n < files.freeNumber folder) :
    files.node? (folder ++ [temporaryName n]) ≠ none := by
  unfold freeNumber at less
  cases chosen : (List.range (files.nodes.length + 1)).find? fun n =>
      (files.node? (folder ++ [temporaryName n])).isNone with
  | none =>
    rw [chosen] at less
    cases less
  | some number =>
    rw [chosen] at less
    intro free
    have taken := (List.find?_range_eq_some.mp chosen).2.2 n less
    rw [free] at taken
    cases taken

/-- What keeps a file from taking the place of what a path ends with. -/
def obstacle? (files : FileSystem) (target : Path) : Option SystemError :=
  match (files.entry? target).mapError fun error =>
      if error = .nulInPath then .invalidArgument else error with
  | .error error => some error
  | .ok none => some .busy
  | .ok (some entry) =>
    if entry.slash then some .notDirectory
    else
      match files.node? entry.location with
      | some (.directory _) => some .isDirectory
      | _ => none

theorem FileAt.rename_eq_error_iff (file : FileAt files temporary location mode content) :
    files.rename temporary target = .error error ↔ files.obstacle? target = some error := by
  unfold FileSystem.rename obstacle?
  simp only [file.entered, bind, Except.bind]
  cases (files.entry? target).mapError fun error =>
      if error = .nulInPath then .invalidArgument else error with
  | error => simp
  | ok entry =>
    cases entry with
    | none => simp [throw, throwThe, MonadExceptOf.throw]
    | some entry =>
      simp only [file.there]
      cases entry.slash with
      | true => simp [throw, throwThe, MonadExceptOf.throw]
      | false =>
        cases files.node? entry.location with
        | none => simp [pure, Except.pure]
        | some node => cases node <;> simp [pure, Except.pure, throw, throwThe, MonadExceptOf.throw]

/-- A rename that is not kept from it is made. -/
theorem FileAt.obstacle?_eq_none (file : FileAt files temporary location mode content)
    (renamed : files.rename temporary target = .ok after) : files.obstacle? target = none := by
  cases kept : files.obstacle? target with
  | none => rfl
  | some error =>
    rw [file.rename_eq_error_iff.mpr kept] at renamed
    cases renamed

end Colorization.FileSystem
