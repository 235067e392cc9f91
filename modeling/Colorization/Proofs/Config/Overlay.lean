import Colorization.Proofs.Config.RoundTrip
import Colorization.Proofs.Yaml.Joined

/-! A text with some of the settings, in any order and among keys that are no settings. What is not told is as by
default, and what is told twice is a fault. -/
namespace Colorization

namespace Config

open Yaml

/-- What stands under the key of the tokenizer: a member as it is printed, or something else. -/
inductive TokenizerPart where
  | program (value : Option String)
  | args (values : List String)
  | other (text : String)

/-- What stands in a text: a setting as it is printed, a tokenizer part by part, or something else. -/
inductive Part where
  | whole (config : Config) (setting : Setting)
  | tokenizer (parts : List TokenizerPart)
  | other (text : String)

/-- Every key is a text that is none of the names. -/
def OtherKeys (names : List String) (entries : List (Node × Node)) : Prop :=
  ∀ entry ∈ entries, ∃ properties plain key, entry.1 = .scalar properties plain key ∧ key ∉ names

namespace TokenizerPart

def names : List String := ["program", "args"]

def key? : TokenizerPart → Option String
  | .program _ => some "program"
  | .args _ => some "args"
  | .other _ => none

def entries : TokenizerPart → List (String × Block)
  | .program value => [("program", (value.map .text).getD (.word "null"))]
  | .args values => [("args", .list values)]
  | .other _ => []

def written : TokenizerPart → List Char
  | .other text => text.toList
  | part => writtenEntries indentStep part.entries

def apply (command : TokenizerCommand) : TokenizerPart → TokenizerCommand
  | .program value => { command with program := value }
  | .args values => { command with args := values }
  | .other _ => command

/-- What is something else is a mapping of its own with other keys. The anchors of the parts in front of it
may be named in it. -/
def Fits (before : List (String × Nat)) (part : TokenizerPart) (after : List (String × Nat)) : Prop :=
  match part with
  | .other text => ∃ entries, Foreign indentStep before text entries after ∧ OtherKeys names entries
  | _ => after = before

end TokenizerPart

namespace Part

def key? : Part → Option String
  | .whole _ setting => some setting.name
  | .tokenizer _ => some Setting.tokenizer.name
  | .other _ => none

def written : Part → List Char
  | .whole config setting => writtenEntries 0 (config.entries [setting])
  | .tokenizer parts => Setting.tokenizer.name.toList ++ ':' :: '\n' :: parts.flatMap (·.written)
  | .other text => text.toList

def apply (config : Config) : Part → Config
  | .whole source setting => setting.copy source config
  | .tokenizer parts => { config with tokenizer := parts.foldl TokenizerPart.apply .default }
  | .other _ => config

def Fits (before : List (String × Nat)) (part : Part) (after : List (String × Nat)) : Prop :=
  match part with
  | .whole _ _ => after = before
  | .tokenizer parts => Following TokenizerPart.Fits before parts after
  | .other text => ∃ entries, Foreign 0 before text entries after ∧ OtherKeys (Setting.all.map Setting.name) entries

/-- No key of a tokenizer is given twice. -/
def Distinct : Part → Prop
  | .tokenizer parts => (parts.filterMap TokenizerPart.key?).Nodup
  | _ => True

instance : (part : Part) → Decidable part.Distinct
  | .tokenizer parts => inferInstanceAs (Decidable (parts.filterMap TokenizerPart.key?).Nodup)
  | .whole _ _ | .other _ => .isTrue trivial

/-- No setting is given twice, nor a key of the tokenizer. -/
def Once (parts : List Part) : Prop := (parts.filterMap key?).Nodup ∧ ∀ part ∈ parts, part.Distinct

instance (parts : List Part) : Decidable (Once parts) := inferInstanceAs (Decidable (_ ∧ _))

end Part

def textOf (parts : List Part) : String := String.ofList (parts.flatMap (·.written))

section Written

theorem writtenEntries_append (indent : Nat) (entries more : List (String × Block)) :
    writtenEntries indent (entries ++ more) = writtenEntries indent entries ++ writtenEntries indent more := by
  induction entries with
  | nil => rfl
  | cons entry entries ih => simp only [List.cons_append, writtenEntries, ih, List.append_assoc]

/-- What is printed for all settings is a text of them all. -/
theorem toYaml_eq_textOf (config : Config) : config.toYaml = textOf (Setting.all.map (.whole config)) := by
  have each (settings : List Setting) : writtenEntries 0 (config.entries settings) =
      (settings.map (.whole config)).flatMap Part.written := by
    induction settings with
    | nil => rfl
    | cons setting settings ih =>
      rw [List.map_cons, List.flatMap_cons, ← ih]
      exact writtenEntries_append 0 (config.entries [setting]) (config.entries settings)
  rw [toYaml_eq, print, each]
  rfl

/-- What is printed for a tokenizer has two parts. -/
theorem written_tokenizer (config : Config) : (Part.whole config .tokenizer).written =
    (Part.tokenizer [.program config.tokenizer.program, .args config.tokenizer.args]).written := by
  have inner := writtenEntries_append indentStep (TokenizerPart.program config.tokenizer.program).entries
    (TokenizerPart.args config.tokenizer.args).entries
  change Setting.tokenizer.name.toList ++ ':' :: '\n' :: writtenEntries indentStep _ ++ [] = _
  rw [List.append_nil, Part.written, List.flatMap_cons, List.flatMap_singleton]
  exact congrArg (Setting.tokenizer.name.toList ++ ':' :: '\n' :: ·) inner

end Written

section Fold

variable {α σ : Type} {document : Document} {path : List Step} {mark : Mark} {key : String}
  {read : Draft σ → String → List Step → Node → Except Fault (Draft σ)} {draft : Draft σ} {fine fine' : Prop}
  {keys keys' names : List String} {change change' : σ → σ} {result : Except Fault (Draft σ)}
  {entries : List (Node × Node)}

def IsDuplicate (fault : Fault) : Prop := ∃ key, fault.cause = .duplicate key

/-- What comes of entries that give some keys: a changed value, or a fault where a key has been seen. -/
structure Outcome (fine : Prop) (keys : List String) (change : σ → σ) (draft : Draft σ)
    (result : Except Fault (Draft σ)) : Prop where
  fresh : (keys ++ draft.seen).Nodup → fine → result = .ok ⟨change draft.value, keys.reverse ++ draft.seen⟩
  again : draft.seen.Nodup → ¬((keys ++ draft.seen).Nodup ∧ fine) → ∃ fault, result = .error fault ∧ IsDuplicate fault

theorem outcome_nothing (draft : Draft σ) : Outcome True [] id draft (.ok draft) :=
  ⟨fun _ _ => rfl, fun seen twice => absurd ⟨seen, trivial⟩ twice⟩

theorem outcome_set {update : Except Fault (σ → σ)} (ok : fine → update = .ok change)
    (fault : ¬fine → ∃ fault, update = .error fault ∧ IsDuplicate fault) (draft : Draft σ) (key : String) :
    Outcome fine [key] change draft (draft.set key update) where
  fresh distinct isFine := by
    have fresh : key ∉ draft.seen := (List.nodup_cons.mp distinct).1
    rw [ok isFine, set_ok fresh]
    rfl
  again seen twice := by
    by_cases fresh : key ∈ draft.seen
    · refine ⟨⟨.duplicate key, none⟩, ?_, key, rfl⟩
      rw [Draft.set, if_pos (by simpa using fresh)]
      rfl
    · have notFine : ¬fine := fun isFine => twice ⟨List.nodup_cons.mpr ⟨fresh, seen⟩, isFine⟩
      obtain ⟨fault, failed, isDuplicate⟩ := fault notFine
      refine ⟨fault, ?_, isDuplicate⟩
      rw [Draft.set, if_neg (by simpa using fresh), failed]
      rfl

theorem Outcome.bind {next : Draft σ → Except Fault (Draft σ)} (first : Outcome fine keys change draft result)
    (later : ∀ draft, Outcome fine' keys' change' draft (next draft)) :
    Outcome (fine ∧ fine') (keys ++ keys') (change' ∘ change) draft (result >>= next) := by
  have moved : (keys' ++ (keys.reverse ++ draft.seen)).Perm (keys ++ keys' ++ draft.seen) := by
    refine (List.perm_append_comm_assoc ..).trans ?_
    rw [List.append_assoc]
    exact (List.reverse_perm keys).append_right _
  constructor
  · intro distinct isFine
    have distinct' := moved.nodup_iff.mpr distinct
    have before : (keys ++ draft.seen).Nodup :=
      ((List.reverse_perm keys).append_right _).nodup_iff.mp (List.nodup_append.mp distinct').2.1
    rw [first.fresh before isFine.1]
    refine ((later _).fresh distinct' isFine.2).trans ?_
    simp
  · intro seen twice
    by_cases before : (keys ++ draft.seen).Nodup ∧ fine
    · rw [first.fresh before.1 before.2]
      refine (later _).again (((List.reverse_perm keys).append_right _).nodup_iff.mpr before.1) fun both => twice ?_
      exact ⟨moved.nodup_iff.mp both.1, before.2, both.2⟩
    · obtain ⟨fault, failed, isDuplicate⟩ := first.again seen before
      exact ⟨fault, by rw [failed]; rfl, isDuplicate⟩

/-- The outcomes of parts make the outcome of them all. The induction is on the parts. -/
theorem outcome_parts {told : α → List (Node × Node) → Prop} {fine : α → Prop} {key? : α → Option String}
    {change : σ → α → σ} {step : Draft σ → Node × Node → Except Fault (Draft σ)}
    {parts : List α} {pieces : List (List (Node × Node))} (areTold : List.Forall₂ told parts pieces)
    (each : ∀ part piece, told part piece → ∀ draft,
      Outcome (fine part) (key? part).toList (change · part) draft (piece.foldlM step draft))
    (draft : Draft σ) : Outcome (∀ part ∈ parts, fine part) (parts.filterMap key?) (parts.foldl change) draft
      (pieces.flatten.foldlM step draft) := by
  induction areTold generalizing draft with
  | nil => exact ⟨fun _ _ => rfl, fun seen twice => absurd ⟨seen, by simp⟩ twice⟩
  | @cons part piece parts pieces isTold _ ih =>
    have both := (each part _ isTold draft).bind fun draft => ih draft
    have keys : (part :: parts).filterMap key? = (key? part).toList ++ parts.filterMap key? := by
      cases isKey : key? part <;> simp [isKey]
    rw [List.flatten_cons, List.foldlM_append, keys, List.forall_mem_cons]
    exact both

/-- The reading of one entry. -/
def readNext (document : Document) (path : List Step) (read : Draft σ → String → List Step → Node → Except Fault (Draft σ))
    (draft : Draft σ) (entry : Node × Node) : Except Fault (Draft σ) := do
  let key ← readText document .fieldName path entry.1
  read draft key (path ++ [stepOf entry.1]) entry.2

theorem foldlM_named {name value : Node} (named : Plainly true key name) :
    [(name, value)].foldlM (readNext document path read) draft = read draft key (path ++ [.key key]) value := by
  obtain ⟨place, rfl⟩ := named
  exact bind_pure _

/-- Keys that are passed over change nothing. -/
theorem foldlM_others (passes : ∀ draft path value, ∀ key ∉ names, read draft key path value = .ok draft)
    (others : OtherKeys names entries) : entries.foldlM (readNext document path read) draft = .ok draft := by
  induction entries with
  | nil => rfl
  | cons entry entries ih =>
    obtain ⟨name, value⟩ := entry
    obtain ⟨⟨properties, plain, key, rfl, other⟩, further⟩ := List.forall_mem_cons.mp others
    have first : readNext document path read draft (.scalar properties plain key, value) = .ok draft :=
      passes draft _ value key other
    rw [List.foldlM_cons, first]
    exact ih further

theorem locate_ok (value : α) : locate path mark (.ok value) = .ok value := rfl

theorem IsDuplicate.locate {fault : Fault} (isDuplicate : IsDuplicate fault) : ∃ fault',
    locate path mark (.error fault : Except Fault α) = .error fault' ∧ IsDuplicate fault' := by
  obtain ⟨cause, place⟩ := fault
  cases place with
  | none => exact ⟨_, rfl, isDuplicate⟩
  | some place => exact ⟨_, rfl, isDuplicate⟩

theorem Outcome.locate (outcome : Outcome fine keys change draft result) (path : List Step) (mark : Mark) :
    Outcome fine keys change draft (locate path mark result) where
  fresh distinct isFine := by rw [outcome.fresh distinct isFine, locate_ok]
  again seen twice := by
    obtain ⟨fault, rfl, isDuplicate⟩ := outcome.again seen twice
    exact isDuplicate.locate

/-- All entries of a mapping have been read. -/
theorem Outcome.value {start : σ} (outcome : Outcome fine keys change (.start start) result) :
    (keys.Nodup ∧ fine → (result >>= fun draft => pure draft.value) = .ok (change start)) ∧
      (¬(keys.Nodup ∧ fine) →
        ∃ fault, (result >>= fun draft => pure draft.value) = .error fault ∧ IsDuplicate fault) := by
  have same : keys ++ (Draft.start start).seen = keys := List.append_nil keys
  constructor
  · rintro ⟨distinct, isFine⟩
    rw [outcome.fresh (by rwa [same]) isFine]
    rfl
  · intro twice
    obtain ⟨fault, rfl, isDuplicate⟩ := outcome.again List.nodup_nil (by rwa [same])
    exact ⟨fault, rfl, isDuplicate⟩

end Fold

section Tokenizer

variable {document : Document} {path : List Step} {node : Node} {parts : List TokenizerPart}

def TokenizerPart.Told (part : TokenizerPart) (entries : List (Node × Node)) : Prop :=
  match part with
  | .other _ => OtherKeys names entries
  | part => TellsEntries part.entries entries

/-- The reading of an entry of the tokenizer. -/
def readTokenizerEntry (document : Document) (draft : Draft TokenizerCommand) (key : String) (path : List Step)
    (node : Node) : Except Fault (Draft TokenizerCommand) :=
  if key = "program" then
    draft.set key do
      let program ← readProgram document path node
      return fun command => { command with program }
  else if key = "args" then
    draft.set key do
      let args ← readTexts document path node
      return fun command => { command with args }
  else .ok draft

theorem TokenizerPart.outcome {part : TokenizerPart} {piece : List (Node × Node)} (told : part.Told piece)
    (draft : Draft TokenizerCommand) : Outcome True part.key?.toList (apply · part) draft
      (piece.foldlM (readNext document path (readTokenizerEntry document)) draft) := by
  cases part with
  | program value =>
    obtain _ | ⟨named, first, _ | _⟩ := told
    rw [foldlM_named named, readTokenizerEntry, if_pos rfl, readProgram_tells first]
    exact outcome_set (fun _ => rfl) (fun no => absurd trivial no) draft _
  | args values =>
    obtain _ | ⟨named, first, _ | _⟩ := told
    rw [foldlM_named named, readTokenizerEntry, if_neg (by decide), if_pos rfl, readTexts_tells first]
    exact outcome_set (fun _ => rfl) (fun no => absurd trivial no) draft _
  | other text =>
    rw [foldlM_others ?passes told]
    case passes =>
      intro draft path value key other
      simp only [names, List.mem_cons, List.not_mem_nil, or_false, not_or] at other
      rw [readTokenizerEntry, if_neg other.1, if_neg other.2]
    exact outcome_nothing draft

/-- What is read of a tokenizer: nothing at all, or the entries of its parts. -/
def TellsTokenizer (parts : List TokenizerPart) (node : Node) : Prop :=
  (parts = [] ∧ ∃ mark, node = .empty mark) ∨ ∃ mark pieces,
    List.Forall₂ TokenizerPart.Told parts pieces ∧ node = .mapping ⟨mark, none, none⟩ pieces.flatten

theorem readTokenizer_parts (document : Document) (path : List Step) (told : TellsTokenizer parts node) :
    ((parts.filterMap TokenizerPart.key?).Nodup →
      readTokenizer document path node = .ok (parts.foldl TokenizerPart.apply .default)) ∧
    (¬(parts.filterMap TokenizerPart.key?).Nodup →
      ∃ fault, readTokenizer document path node = .error fault ∧ IsDuplicate fault) := by
  obtain ⟨rfl, mark, rfl⟩ | ⟨mark, pieces, areTold, rfl⟩ := told
  · exact ⟨fun _ => rfl, fun twice => absurd List.nodup_nil twice⟩
  have outcome : Outcome (∀ part ∈ parts, True) (parts.filterMap TokenizerPart.key?)
      (parts.foldl TokenizerPart.apply) (.start .default)
      (pieces.flatten.foldlM (readNext document path (readTokenizerEntry document)) (.start .default)) :=
    outcome_parts areTold (fun _ _ isTold draft => (TokenizerPart.outcome isTold draft :)) _
  obtain ⟨distinct, again⟩ := (outcome.locate path mark).value
  exact ⟨fun once => distinct ⟨once, fun _ _ => trivial⟩, fun twice => again fun both => twice both.1⟩

end Tokenizer

section Whole

variable {document : Document} {path : List Step} {parts : List Part}

def Part.Told (part : Part) (entries : List (Node × Node)) : Prop :=
  match part with
  | .whole config setting => TellsEntries (config.entries [setting]) entries
  | .tokenizer parts => ∃ name value,
    entries = [(name, value)] ∧ Plainly true Setting.tokenizer.name name ∧ TellsTokenizer parts value
  | .other _ => OtherKeys (Setting.all.map Setting.name) entries

theorem readEntry_other {draft : Draft Config} {key : String} (other : key ∉ Setting.all.map Setting.name)
    (node : Node) : readEntry document draft key path node = .ok draft := by
  have none : Setting.all.find? (·.name = key) = none := by
    rw [List.find?_eq_none]
    intro setting member
    have differ : setting.name ≠ key := fun same => other (same ▸ List.mem_map_of_mem member)
    simpa using differ
  rw [readEntry, none]

theorem Part.outcome {part : Part} {piece : List (Node × Node)} (told : part.Told piece)
    (draft : Draft Config) : Outcome part.Distinct part.key?.toList (apply · part) draft
      (piece.foldlM (readNext document path (readEntry document)) draft) := by
  cases part with
  | whole config setting =>
    obtain _ | ⟨named, first, _ | _⟩ := told
    rw [foldlM_named named, readEntry, find?_name]
    simp only [readSetting_tells first]
    exact outcome_set (fun _ => rfl) (fun no => absurd trivial no) draft _
  | tokenizer parts =>
    obtain ⟨name, value, rfl, named, isTold⟩ := told
    obtain ⟨distinct, twice⟩ := readTokenizer_parts document (path ++ [.key Setting.tokenizer.name]) isTold
    rw [foldlM_named named, readEntry, find?_name]
    refine outcome_set (fun isDistinct => ?_) (fun isTwice => ?_) draft _
    · rw [readSetting, distinct isDistinct]
      rfl
    · obtain ⟨fault, failed, isDuplicate⟩ := twice isTwice
      exact ⟨fault, by rw [readSetting, failed]; rfl, isDuplicate⟩
  | other text =>
    rw [foldlM_others (fun draft path value key other => readEntry_other other value) told]
    exact outcome_nothing draft

end Whole

section Texts

variable {before after : List (String × Nat)} {names : List String} {entries entries' : List (Node × Node)}
  {parts : List Part}

theorem otherKeys_iff : OtherKeys names entries ↔
    ∀ told ∈ Node.keyTexts entries, ∃ plain key, told = some (plain, key) ∧ key ∉ names := by
  simp only [OtherKeys, Node.keyTexts, List.forall_mem_map]
  refine forall₂_congr fun entry _ => ?_
  constructor
  · rintro ⟨properties, plain, key, isKey, other⟩
    exact ⟨plain, key, by rw [isKey]; rfl, other⟩
  · rintro ⟨plain, key, told, other⟩
    obtain ⟨name, value⟩ := entry
    cases name with
    | scalar properties plain' text =>
      cases told
      exact ⟨properties, plain, key, rfl, other⟩
    | _ => cases told

theorem OtherKeys.of_keyTexts (others : OtherKeys names entries)
    (same : Node.keyTexts entries' = Node.keyTexts entries) : OtherKeys names entries' := by
  rwa [otherKeys_iff, same, ← otherKeys_iff]

theorem TokenizerPart.lists {part : TokenizerPart} (fits : part.Fits before after) :
    Lists indentStep before part.written part.Told after := by
  cases part with
  | program value =>
    obtain rfl : after = before := fits
    exact lists_printed (by decide) (legible_program value) indentStep after
  | args values =>
    obtain rfl : after = before := fits
    exact lists_printed (by decide) (by trivial) indentStep after
  | other text =>
    obtain ⟨entries, foreign, others⟩ := fits
    exact (lists_foreign foreign).weaken fun _ same => others.of_keyTexts same

theorem Part.lists {part : Part} (fits : part.Fits before after) :
    Lists 0 before part.written part.Told after := by
  cases part with
  | whole config setting =>
    obtain rfl : after = before := fits
    exact lists_printed (isName_name setting) (legible_block config setting) 0 after
  | tokenizer parts =>
    cases parts with
    | nil =>
      obtain rfl : after = before := fits
      refine (lists_bare (isName_name .tokenizer) 0 after).weaken ?_
      rintro _ ⟨name, mark, named, rfl⟩
      exact ⟨name, _, rfl, named, .inl ⟨rfl, mark, rfl⟩⟩
    | cons part parts =>
      refine ((lists_parts fits TokenizerPart.lists).nest (isName_name .tokenizer)).weaken ?_
      rintro _ ⟨name, mark, _, named, ⟨pieces, areTold, rfl⟩, rfl⟩
      exact ⟨name, _, rfl, named, .inr ⟨mark, pieces, areTold, rfl⟩⟩
  | other text =>
    obtain ⟨entries, foreign, others⟩ := fits
    exact (lists_foreign foreign).weaken fun _ same => others.of_keyTexts same

/-- The parts of a text are read one after the other. -/
theorem ofYaml_parts (fit : Following Part.Fits before parts after) (fresh : before = []) :
    (Part.Once parts → ofYaml (textOf parts) = .ok (parts.foldl Part.apply .default)) ∧
    (¬Part.Once parts → ∃ fault, ofYaml (textOf parts) = .error (.unfit fault) ∧ IsDuplicate fault) := by
  subst fresh
  cases parts with
  | nil => exact ⟨fun _ => rfl, fun twice => absurd ⟨List.nodup_nil, List.forall_mem_nil _⟩ twice⟩
  | cons part parts =>
    obtain ⟨mark, _, ⟨pieces, areTold, rfl⟩, read⟩ := (lists_parts fit Part.lists).read?
    have outcome : Outcome (∀ each ∈ part :: parts, each.Distinct) ((part :: parts).filterMap Part.key?)
        ((part :: parts).foldl Part.apply) (.start .default) (pieces.flatten.foldlM (readNext
          ⟨some (.mapping ⟨mark, none, none⟩ pieces.flatten)⟩ [] (readEntry _)) (.start .default)) :=
      outcome_parts areTold (fun _ _ isTold draft => (Part.outcome isTold draft :)) _
    obtain ⟨distinct, again⟩ := (outcome.locate [] mark).value
    rw [ofYaml, textOf, read]
    refine ⟨fun once => congrArg (Except.mapError YamlFault.unfit) (distinct once), fun twice => ?_⟩
    obtain ⟨fault, failed, isDuplicate⟩ := again twice
    exact ⟨fault, congrArg (Except.mapError YamlFault.unfit) failed, isDuplicate⟩

end Texts

section Result

variable {config source source' : Config} {setting setting' : Setting} {key : String}

/-- The values that the parts tell, and what the others are by default. -/
structure TokenizerPart.Overlay (parts : List TokenizerPart) (command : TokenizerCommand) : Prop where
  program : ∀ value, .program value ∈ parts → command.program = value
  noProgram : "program" ∉ parts.filterMap key? → command.program = none
  args : ∀ values, .args values ∈ parts → command.args = values
  noArgs : "args" ∉ parts.filterMap key? → command.args = []

/-- Every setting has the value that its part tells, and the others are as by default. -/
structure Part.Overlay (parts : List Part) (config : Config) : Prop where
  whole : ∀ source setting, .whole source setting ∈ parts → setting.copy source config = config
  tokenizer : ∀ inner, .tokenizer inner ∈ parts → TokenizerPart.Overlay inner config.tokenizer
  missing : ∀ setting : Setting, setting.name ∉ parts.filterMap key? → setting.copy .default config = config

section Keys

variable {α σ : Type} {change : σ → α → σ} {key? : α → Option String} {part : α} {parts : List α} {start : σ}

/-- Parts with other keys keep what is told by a key. -/
theorem foldl_of_notMem (holds : σ → Prop) (absent : key ∉ parts.filterMap key?)
    (keeps : ∀ value other, key? other ≠ some key → holds value → holds (change value other)) (now : holds start) :
    holds (parts.foldl change start) :=
  List.foldlRecOn parts change now fun value still other member =>
    keeps value other (fun same => absent (List.mem_filterMap.mpr ⟨other, member, same⟩)) still

/-- What is told once is told by its part. -/
theorem foldl_of_mem (holds : σ → Prop) (distinct : (parts.filterMap key?).Nodup) (member : part ∈ parts)
    (isKey : key? part = some key) (sets : ∀ value, holds (change value part))
    (keeps : ∀ value other, key? other ≠ some key → holds value → holds (change value other)) :
    holds (parts.foldl change start) := by
  obtain ⟨before, later, rfl⟩ := List.mem_iff_append.mp member
  rw [List.filterMap_append, List.filterMap_cons_some isKey, List.nodup_append] at distinct
  obtain ⟨fresh, -⟩ := List.nodup_cons.mp distinct.2.1
  rw [List.foldl_append, List.foldl_cons]
  exact foldl_of_notMem holds fresh keeps (sets _)

end Keys

theorem TokenizerPart.program_apply {part : TokenizerPart} (differ : part.key? ≠ some "program")
    (command : TokenizerCommand) : (apply command part).program = command.program := by
  cases part with
  | program => exact absurd rfl differ
  | _ => rfl

theorem TokenizerPart.args_apply {part : TokenizerPart} (differ : part.key? ≠ some "args")
    (command : TokenizerCommand) : (apply command part).args = command.args := by
  cases part with
  | args => exact absurd rfl differ
  | _ => rfl

theorem TokenizerPart.overlay_foldl {parts : List TokenizerPart} (distinct : (parts.filterMap key?).Nodup) :
    Overlay parts (parts.foldl apply .default) where
  program value member := foldl_of_mem (·.program = value) distinct member rfl (fun _ => rfl)
    fun command _ differ now => (program_apply differ command).trans now
  noProgram absent := foldl_of_notMem (·.program = none) absent
    (fun command _ differ now => (program_apply differ command).trans now) rfl
  args values member := foldl_of_mem (·.args = values) distinct member rfl (fun _ => rfl)
    fun command _ differ now => (args_apply differ command).trans now
  noArgs absent := foldl_of_notMem (·.args = []) absent
    (fun command _ differ now => (args_apply differ command).trans now) rfl

theorem Setting.copy_self (setting : Setting) (config : Config) : setting.copy config config = config := by
  cases setting <;> rfl

theorem Setting.copy_again (setting : Setting) (source config : Config) :
    setting.copy source (setting.copy source config) = setting.copy source config := by
  cases setting <;> rfl

theorem Setting.copy_comm (differ : setting' ≠ setting) (source source' config : Config) :
    setting.copy source (setting'.copy source' config) = setting'.copy source' (setting.copy source config) := by
  cases setting <;> cases setting' <;> first | rfl | exact absurd rfl differ

theorem Setting.tokenizer_copy (differ : setting ≠ .tokenizer) (source config : Config) :
    (setting.copy source config).tokenizer = config.tokenizer := by
  cases setting <;> first | rfl | exact absurd rfl differ

/-- A part copies its setting from somewhere. -/
theorem Part.apply_cases (part : Part) : (∀ config, apply config part = config) ∨
    ∃ setting : Setting, part.key? = some setting.name ∧
      ∃ source, ∀ config, apply config part = setting.copy source config := by
  cases part with
  | whole source setting => exact .inr ⟨setting, rfl, source, fun _ => rfl⟩
  | tokenizer parts =>
    exact .inr ⟨.tokenizer, rfl, { Config.default with tokenizer := parts.foldl TokenizerPart.apply .default },
      fun _ => rfl⟩
  | other text => exact .inl fun _ => rfl

theorem Part.copy_apply {part : Part} (differ : part.key? ≠ some setting.name)
    (now : setting.copy source config = config) :
    setting.copy source (apply config part) = apply config part := by
  obtain idle | ⟨setting', isKey, source', copies⟩ := part.apply_cases
  · rw [idle, now]
  · have other : setting' ≠ setting := fun same => differ (same ▸ isKey)
    rw [copies, Setting.copy_comm other, now]

theorem Part.tokenizer_apply {part : Part} (differ : part.key? ≠ some Setting.tokenizer.name) (config : Config) :
    (apply config part).tokenizer = config.tokenizer := by
  obtain idle | ⟨setting, isKey, source, copies⟩ := part.apply_cases
  · rw [idle]
  · rw [copies, Setting.tokenizer_copy fun same => differ (same ▸ isKey)]

theorem Part.overlay_foldl {parts : List Part} (once : Once parts) :
    Overlay parts (parts.foldl apply .default) where
  whole source setting member :=
    foldl_of_mem (fun config => setting.copy source config = config) once.1 member rfl
      (setting.copy_again source) fun _ _ => copy_apply
  tokenizer tokens member :=
    foldl_of_mem (fun config : Config => TokenizerPart.Overlay tokens config.tokenizer) once.1 member rfl
      (fun _ => TokenizerPart.overlay_foldl (once.2 _ member))
      fun config _ differ now => (tokenizer_apply differ config).symm ▸ now
  missing setting absent :=
    foldl_of_notMem (fun config => setting.copy .default config = config) absent (fun _ _ => copy_apply)
      (setting.copy_self _)

end Result

/-- A text of settings gives each the value that its part tells, whatever the order of the parts and whatever other
keys stand between them, and leaves the others as they are by default. It is refused if a key is told twice. What is
printed for all settings is such a text, as is what is printed for a tokenizer. -/
theorem ofYaml_overlays {parts : List Part} {known : List (String × Nat)} (fit : Following Part.Fits [] parts known) :
    (Part.Once parts → ∃ config, ofYaml (textOf parts) = .ok config ∧ Part.Overlay parts config) ∧
    (¬Part.Once parts → ∃ fault, ofYaml (textOf parts) = .error (.unfit fault) ∧ IsDuplicate fault) ∧
    ∀ config : Config, config.toYaml = textOf (Setting.all.map (.whole config)) ∧
      (Part.whole config .tokenizer).written =
        (Part.tokenizer [.program config.tokenizer.program, .args config.tokenizer.args]).written := by
  obtain ⟨read, refused⟩ := ofYaml_parts fit rfl
  refine ⟨fun once => ⟨_, read once, Part.overlay_foldl once⟩, refused, fun config => ?_⟩
  exact ⟨toYaml_eq_textOf config, written_tokenizer config⟩

section Evaluation

variable {n : Nat} {before after : List (String × Nat)} {text : String} {names : List String}

/-- The texts of the keys at the top, and the anchors known behind them. -/
def keysFrom? (before : List (String × Nat)) (text : String) :
    Option (List (Option (Bool × String)) × List (String × Nat)) :=
  match Document.readFrom? before text with
  | some (⟨some (.mapping _ entries)⟩, after) => some (Node.keyTexts entries, after)
  | _ => none

theorem exists_foreign (body : List Kind) {keys : List (Option (Bool × String))}
    (spaces : text.toList.take n = List.replicate n ' ') (opens : OpensLine (text.toList.drop n))
    (ends : EndsLine text.toList)
    (block : (Lexeme.scan? text).map (·.map (·.kind)) = some (.blockMappingStart :: (body ++ [.blockEnd, .streamEnd])))
    (read : keysFrom? before text = some (keys, after)) :
    ∃ entries, Foreign n before text entries after ∧ Node.keyTexts entries = keys := by
  obtain ⟨lexemes, scanned, told⟩ := Option.map_eq_some_iff.mp block
  unfold keysFrom? at read
  split at read
  case h_2 => cases read
  case h_1 properties entries known isRead =>
    cases read
    have split : text.toList = List.replicate n ' ' ++ text.toList.drop n := by rw [← spaces, List.take_append_drop]
    exact ⟨entries, ⟨⟨_, split, opens⟩, ends, ⟨lexemes, body, scanned, told⟩, properties, isRead⟩, rfl⟩

/-- Other keys that are texts. -/
theorem exists_others (body : List Kind) (keys : List (Bool × String))
    (spaces : text.toList.take n = List.replicate n ' ') (opens : OpensLine (text.toList.drop n))
    (ends : EndsLine text.toList)
    (block : (Lexeme.scan? text).map (·.map (·.kind)) = some (.blockMappingStart :: (body ++ [.blockEnd, .streamEnd])))
    (read : keysFrom? before text = some (keys.map some, after)) (others : ∀ key ∈ keys, key.2 ∉ names) :
    ∃ entries, Foreign n before text entries after ∧ OtherKeys names entries := by
  obtain ⟨entries, foreign, told⟩ := exists_foreign body spaces opens ends block read
  refine ⟨entries, foreign, otherKeys_iff.mpr ?_⟩
  rw [told, List.forall_mem_map]
  exact fun key member => ⟨key.1, key.2, rfl, others key member⟩

end Evaluation

/-- Some settings, with a comment, brackets and an anchor between them that is named in the tokenizer. -/
def annotated : List Part := [
  .other "notes: &a [1, \x7bb: c\x7d] # kept\n",
  .whole { Config.default with themes := ["a: b", "x\n"] } .themes,
  .tokenizer [.args ["--all"], .other "  extra: *a\n"]]

theorem ofYaml_overlays_annotated : Following Part.Fits [] annotated [("a", 0)] ∧ Part.Once annotated ∧
    ∃ config, ofYaml (textOf annotated) = .ok config ∧ Part.Overlay annotated config ∧
      config.themes = ["a: b", "x\n"] ∧ config.tokenizer.args = ["--all"] ∧
      config.fixturesDir = Config.default.fixturesDir := by
  have notes : ∃ entries, Foreign 0 [] "notes: &a [1, \x7bb: c\x7d] # kept\n" entries [("a", 0)] ∧
      OtherKeys (Setting.all.map Setting.name) entries :=
    exists_others [.key, .scalar true "notes", .value, .anchor "a", .flowSequenceStart, .scalar true "1", .flowEntry,
      .flowMappingStart, .key, .scalar true "b", .value, .scalar true "c", .flowMappingEnd, .flowSequenceEnd]
      [(true, "notes")] rfl (by decide +kernel) (by decide +kernel) (by decide +kernel) (by decide +kernel)
      (by decide +kernel)
  have extra : ∃ entries, Foreign indentStep [("a", 0)] "  extra: *a\n" entries [("a", 0)] ∧
      OtherKeys TokenizerPart.names entries :=
    exists_others [.key, .scalar true "extra", .value, .alias "a"] [(true, "extra")] rfl (by decide +kernel)
      (by decide +kernel) (by decide +kernel) (by decide +kernel) (by decide +kernel)
  have fit : Following Part.Fits [] annotated [("a", 0)] := ⟨_, notes, _, rfl, _, ⟨_, rfl, _, extra, rfl⟩, rfl⟩
  have once : Part.Once annotated := by decide
  obtain ⟨config, read, overlay⟩ := (ofYaml_overlays fit).1 once
  have themes := overlay.whole _ .themes (List.mem_cons_of_mem _ List.mem_cons_self)
  have tokenizer := overlay.tokenizer _ (List.mem_cons_of_mem _ (List.mem_cons_of_mem _ List.mem_cons_self))
  have args := tokenizer.args ["--all"] List.mem_cons_self
  have fixturesDir := overlay.missing .fixturesDir (by decide)
  exact ⟨fit, once, config, read, overlay, (congrArg Config.themes themes).symm, args,
    (congrArg Config.fixturesDir fixturesDir).symm⟩

/-- A key that is not a text is refused, although it is none of the settings. An alias is not one either: where an
anchor's name is given twice, the key `*b` is taken for what the anchor after it marks. -/
theorem other_keys_refused :
    (∃ entries, Foreign 0 [] "\x7ba: b\x7d: c\n" entries [] ∧ Node.keyTexts entries = [none] ∧
      (ofYaml (textOf [.whole { Config.default with themes := ["x"] } .themes,
        .other "\x7ba: b\x7d: c\n"])).isOk = false) ∧
    ∃ first later, Foreign 0 [] "x: &b 1\n" first [("b", 0)] ∧ Node.keyTexts first = [some (true, "x")] ∧
      Foreign 0 [("b", 0)] "p: &b y\n*b : 2\nq: &c [1]\n" later [("c", 1), ("b", 1)] ∧
      Node.keyTexts later = [some (true, "p"), none, some (true, "q")] ∧
      (ofYaml (textOf [.other "x: &b 1\n", .whole { Config.default with themes := ["x"] } .themes,
        .other "p: &b y\n*b : 2\nq: &c [1]\n"])).isOk = false := by
  obtain ⟨pair, foreignPair, pairKeys⟩ : ∃ entries, Foreign 0 [] "\x7ba: b\x7d: c\n" entries [] ∧
      Node.keyTexts entries = [none] :=
    exists_foreign [.key, .flowMappingStart, .key, .scalar true "a", .value, .scalar true "b", .flowMappingEnd, .value,
      .scalar true "c"] rfl (by decide +kernel) (by decide +kernel) (by decide +kernel) (by decide +kernel)
  obtain ⟨first, foreignFirst, firstKeys⟩ : ∃ entries, Foreign 0 [] "x: &b 1\n" entries [("b", 0)] ∧
      Node.keyTexts entries = [some (true, "x")] :=
    exists_foreign [.key, .scalar true "x", .value, .anchor "b", .scalar true "1"] rfl (by decide +kernel)
      (by decide +kernel) (by decide +kernel) (by decide +kernel)
  obtain ⟨later, foreignLater, laterKeys⟩ : ∃ entries,
      Foreign 0 [("b", 0)] "p: &b y\n*b : 2\nq: &c [1]\n" entries [("c", 1), ("b", 1)] ∧
      Node.keyTexts entries = [some (true, "p"), none, some (true, "q")] :=
    exists_foreign [.key, .scalar true "p", .value, .anchor "b", .scalar true "y", .key, .alias "b", .value,
      .scalar true "2", .key, .scalar true "q", .value, .anchor "c", .flowSequenceStart, .scalar true "1",
      .flowSequenceEnd] rfl (by decide +kernel) (by decide +kernel) (by decide +kernel) (by decide +kernel)
  exact ⟨⟨pair, foreignPair, pairKeys, by decide +kernel⟩, first, later, foreignFirst, firstKeys, foreignLater, laterKeys,
    by decide +kernel⟩

end Config

end Colorization
