import Colorization.Proofs.FileSystem.Temporary
import Colorization.Proofs.Path.Components

/-! Which fixtures have the same baseline. Only the first dot of a name is rewritten, so two
names give the same baseline exactly where one has a dot and the other an underscore, and what
comes after is alike but for the next dot. -/
namespace Colorization

/-- The first name has its first dot where the other has an underscore, and goes on with what
the other goes on with once the next dot is an underscore too. -/
def Confused (one other : List Char) : Prop :=
  ∃ before after, '.' ∉ before ∧ one = before ++ '.' :: flattenDot after ∧
    other = before ++ '_' :: after

theorem Confused.cons (confused : Confused one other) (noDot : c ≠ '.') :
    Confused (c :: one) (c :: other) := by
  obtain ⟨before, after, plain, rfl, rfl⟩ := confused
  exact ⟨c :: before, after, by simp [noDot.symm, plain], rfl, rfl⟩

theorem mem_flattenDot (member : c ∈ flattenDot name) : c ∈ name ∨ c = '_' := by
  induction name with
  | nil => cases member
  | cons d name ih =>
    rw [flattenDot] at member
    split at member
    · rcases List.mem_cons.mp member with rfl | later
      · exact .inr rfl
      · exact .inl (List.mem_cons_of_mem _ later)
    · rcases List.mem_cons.mp member with rfl | later
      · exact .inl List.mem_cons_self
      · rcases ih later with inName | underscore
        · exact .inl (List.mem_cons_of_mem _ inName)
        · exact .inr underscore

theorem length_flattenDot (name : List Char) : (flattenDot name).length = name.length := by
  induction name with
  | nil => rfl
  | cons c rest ih =>
    rw [flattenDot]
    split
    · rfl
    · rw [List.length_cons, List.length_cons, ih]

namespace Path

/-- The name of the baseline for a file of this name. -/
def baselineSegment (name : List Char) : List Char := flattenDot name ++ ".json".toList

theorem baselineSegment_inj {one other : List Char} :
    baselineSegment one = baselineSegment other ↔ flattenDot one = flattenDot other := by
  rw [baselineSegment, baselineSegment, List.append_cancel_right_eq]

theorem Plain.baselineSegment {name : List Char} (plain : Plain name) :
    Plain (baselineSegment name) where
  notEmpty := by simp [Path.baselineSegment]
  notHere same := by
    have length := congrArg List.length same
    simp [Path.baselineSegment] at length
  notUp same := by
    have length := congrArg List.length same
    simp [Path.baselineSegment] at length
  noSlash := by
    intro member
    rcases List.mem_append.mp member with inName | inSuffix
    · rcases mem_flattenDot inName with slash | slash
      · exact plain.noSlash slash
      · exact absurd slash (by decide)
    · exact absurd inSuffix (by decide)

variable {fixture other results : Path} {name name' : String}

theorem baselineName_eq (named : fixture.fileName? = some name) :
    fixture.baselineName = String.ofList (baselineSegment name.toList) := by
  simp [baselineName, named, baselineSegment, String.ofList_append]

theorem suffix_baselineName (fixture : Path) : ".json".toList <:+ fixture.baselineName.toList := by
  rw [baselineName, String.toList_append]
  exact List.suffix_append ..

theorem length_baselineName (named : fixture.fileName? = some name) :
    fixture.baselineName.length = name.length + 5 := by
  have suffix : ".json".toList.length = 5 := by decide
  rw [baselineName_eq named, String.length_ofList, baselineSegment, List.length_append, length_flattenDot,
    suffix, String.length_toList]

theorem baseline_eq (named : fixture.fileName? = some name) :
    results.baseline fixture = results.join ⟨String.ofList (baselineSegment name.toList)⟩ := by
  rw [baseline, baselineName_eq named]

theorem components_baseline (named : fixture.fileName? = some name) :
    (results.baseline fixture).components =
      results.components ++ [.name (String.ofList (baselineSegment name.toList))] := by
  rw [baseline_eq named, components_join (plain_of_fileName? named).baselineSegment]

/-- Two files have the same baseline exactly if their names come out alike. -/
theorem baseline_same_iff (named : fixture.fileName? = some name)
    (named' : other.fileName? = some name') :
    (results.baseline fixture).same (results.baseline other) = true ↔
      flattenDot name.toList = flattenDot name'.toList := by
  simp [same, components_baseline named, components_baseline named', String.ofList_inj,
    baselineSegment_inj]

theorem baseline_same_of_name (named : fixture.fileName? = some name)
    (named' : other.fileName? = some name') (same : fixture.baselineName = other.baselineName) :
    (results.baseline fixture).same (results.baseline other) = true := by
  rw [baselineName_eq named, baselineName_eq named', String.ofList_inj, baselineSegment_inj] at same
  exact (baseline_same_iff named named').mpr same

theorem fileName?_of_same {one other : Path} (alike : one.same other = true) :
    one.fileName? = other.fileName? := by
  have components : one.components = other.components := by simpa [same] using alike
  rw [fileName?, fileName?, components]

/-- A name put behind a path is its last segment. -/
theorem segments_join_concat (left : Path) {name : List Char} (plain : '/' ∉ name) :
    ∃ before, segments (left.join ⟨String.ofList name⟩).text.toList = before ++ [name] := by
  by_cases empty : left.text = ""
  · refine ⟨[], ?_⟩
    simp [join, isAbsolute_of_not_mem plain, empty, segments_of_not_mem plain]
  · rcases segments_join plain empty with ⟨before, -, text⟩ | text
    · exact ⟨before, text⟩
    · exact ⟨_, text⟩

end Path

namespace FileSystem

/-- The entry of what is put behind a path has the name that was put there. -/
theorem getLast?_of_entry?_join {files : FileSystem} {left : Path} {name : List Char}
    (plain : Path.Plain name)
    (entered : files.entry? (left.join ⟨String.ofList name⟩) = .ok (some ⟨location, slash⟩)) :
    location.getLast? = some (String.ofList name) := by
  obtain ⟨-, folder, name', named, ⟨above, blanks, _, _, text, empty, -⟩, rfl⟩ :=
    entry?_eq_ok_iff.mp entered
  obtain ⟨before, text'⟩ := Path.segments_join_concat left plain.noSlash
  have last := dropWhile_reverse_append above named.notEmpty empty
  rw [← text, text', dropWhile_reverse_append before plain.notEmpty (by simp)] at last
  rw [(List.cons.inj last).1, List.getLast?_concat]

end FileSystem

end Colorization
