import Colorization.Config.Reading
import Colorization.Proofs.Except
import Colorization.Proofs.Yaml.Tree

/-! Printed settings are read back. Each setting is read from its own entry alone and copied into what
the entries before it have given. -/
namespace Colorization

namespace Config

open Yaml

/-- What is printed for a setting. -/
def block (config : Config) : Setting → Block
  | .fixturesDir => .text config.fixturesDir.text
  | .resultsDir => .text config.resultsDir.text
  | .exportsDir => .text config.exportsDir.text
  | .fixtureExtensions => .list config.fixtureExtensions
  | .format => .text config.format.name
  | .themes => .list config.themes
  | .tokenizer => .entries [
      ("program", (config.tokenizer.program.map .text).getD (.word "null")),
      ("args", .list config.tokenizer.args)]

def entries (config : Config) (settings : List Setting) : List (String × Block) :=
  settings.map fun setting => (setting.name, config.block setting)

theorem toYaml_eq (config : Config) : config.toYaml = print (config.entries Setting.all) := rfl

/-- A setting takes its value from another configuration. -/
def Setting.copy (config : Config) : Setting → Config → Config
  | .fixturesDir, other => { other with fixturesDir := config.fixturesDir }
  | .resultsDir, other => { other with resultsDir := config.resultsDir }
  | .exportsDir, other => { other with exportsDir := config.exportsDir }
  | .fixtureExtensions, other => { other with fixtureExtensions := config.fixtureExtensions }
  | .format, other => { other with format := config.format }
  | .themes, other => { other with themes := config.themes }
  | .tokenizer, other => { other with tokenizer := config.tokenizer }

section Legible

theorem isName_name (setting : Setting) : IsName setting.name := by
  cases setting <;> decide

theorem legible_program (program : Option String) :
    ((program.map Block.text).getD (.word "null")).Legible := by
  cases program with
  | none => exact ⟨by decide, by decide⟩
  | some text => trivial

theorem legible_block (config : Config) (setting : Setting) : (config.block setting).Legible := by
  cases setting with
  | tokenizer =>
    exact ⟨by simp, by decide, legible_program config.tokenizer.program, by decide, trivial, trivial⟩
  | _ => trivial

theorem legible_entries (config : Config) (settings : List Setting) :
    LegibleEntries (config.entries settings) := by
  induction settings with
  | nil => trivial
  | cons setting settings ih => exact ⟨isName_name setting, legible_block config setting, ih⟩

end Legible

section Reading

variable {document : Document} {path : List Step} {node : Node}

theorem readText_plainly {plain : Bool} {text : String} (told : Plainly plain text node) (wanted : Wanted) :
    readText document wanted path node = .ok text := by
  obtain ⟨mark, rfl⟩ := told
  rfl

theorem readItems_plainly {items : List String} {nodes : List Node}
    (told : List.Forall₂ (fun item => Plainly (Style.choose item).isPlain item) items nodes) (index : Nat) :
    readItems document path index nodes = .ok items := by
  induction told generalizing index with
  | nil => rfl
  | cons first _ ih =>
    rw [readItems, readText_plainly first, ih]
    rfl

theorem readTexts_tells {items : List String} (told : Tells (.list items) node) :
    readTexts document path node = .ok items := by
  cases told with
  | list mark told => exact congrArg (locate path mark) (readItems_plainly told 0)

theorem readPath_tells {text : String} (told : Tells (.text text) node) :
    readPath document path node = .ok ⟨text⟩ := by
  cases told with
  | text told =>
    rw [readPath, readText_plainly told]
    rfl

theorem readFormat_tells {format : Format} (told : Tells (.text format.name) node) :
    readFormat document path node = .ok format := by
  cases told with
  | text told =>
    obtain ⟨mark, rfl⟩ := told
    cases format <;> rfl

theorem not_isNull_of_plain {text : String} (plain : (Style.choose text).isPlain = true) :
    isNull text = false := by
  have styled := styled_choose text
  generalize Style.choose text = style at plain styled
  obtain ⟨free, -⟩ | _ := styled
  · cases null : isNull text with
    | false => rfl
    | true => simp [needsQuotes, Meaning.ofPlain, null] at free
  all_goals cases plain

/-- A program whose text could be taken for none is quoted. -/
theorem readProgram_tells {program : Option String}
    (told : Tells ((program.map .text).getD (.word "null")) node) :
    readProgram document path node = .ok program := by
  cases program with
  | none =>
    obtain ⟨mark, rfl⟩ | _ := told
    rfl
  | some text =>
    obtain _ | ⟨mark, rfl⟩ := told
    cases plain : (Style.choose text).isPlain with
    | true => simp [readProgram, Document.resolve, not_isNull_of_plain plain]
    | false => rfl

/-- An entry is read with the key it is printed with, and then those behind it. -/
theorem foldEntries_cons {α : Type} {read : α → String → List Step → Node → Except Fault α}
    {key : String} {name value : Node} {more : List (Node × Node)} {start : α} (next : α) (mark : Mark)
    (named : Plainly true key name) (first : read start key (path ++ [.key key]) value = .ok next)
    (wanted : Wanted) :
    foldEntries document path read start (.mapping ⟨mark, none, none⟩ ((name, value) :: more)) wanted =
      foldEntries document path read next (.mapping ⟨mark, none, none⟩ more) wanted := by
  obtain ⟨place, rfl⟩ := named
  change locate path mark (read start key (path ++ [.key key]) value >>= _) = _
  rw [first]
  rfl

theorem set_ok {α : Type} {draft : Draft α} {key : String} {update : α → α} (fresh : key ∉ draft.seen) :
    draft.set key (.ok update) = .ok ⟨update draft.value, key :: draft.seen⟩ := by
  rw [Draft.set, if_neg (by simpa using fresh)]
  rfl

theorem readTokenizer_tells {program : Option String} {args : List String}
    (told : Tells (.entries [("program", (program.map .text).getD (.word "null")), ("args", .list args)])
      node) : readTokenizer document path node = .ok ⟨program, args⟩ := by
  obtain _ | _ | _ | ⟨mark, told⟩ := told
  obtain _ | ⟨programName, first, _ | ⟨argsName, second, _ | _⟩⟩ := told
  refine bind_eq_ok_iff.mpr ⟨⟨⟨program, args⟩, ["args", "program"]⟩,
    (foldEntries_cons ⟨⟨program, []⟩, ["program"]⟩ mark programName ?program _).trans
      (foldEntries_cons _ mark argsName ?args _), rfl⟩
  case program =>
    rw [if_pos rfl, readProgram_tells first]
    exact set_ok (by decide)
  case args =>
    rw [if_neg (by decide), if_pos rfl, readTexts_tells second]
    exact set_ok (by simp)
/-- A setting is read as what copies it. -/
theorem readSetting_tells {config : Config} {setting : Setting} (told : Tells (config.block setting) node) :
    readSetting document path node setting = .ok (setting.copy config) := by
  cases setting with
  | fixturesDir | resultsDir | exportsDir => exact congrArg (· >>= _) (readPath_tells told)
  | fixtureExtensions | themes => exact congrArg (· >>= _) (readTexts_tells told)
  | format => exact congrArg (· >>= _) (readFormat_tells told)
  | tokenizer => exact congrArg (· >>= _) (readTokenizer_tells told)

theorem find?_name (setting : Setting) : Setting.all.find? (·.name = setting.name) = some setting := by
  cases setting <;> decide

end Reading

/-- The reading of one entry at the top. -/
def readEntry (document : Document) (draft : Draft Config) (key : String) (path : List Step) (node : Node) :
    Except Fault (Draft Config) :=
  match Setting.all.find? (·.name = key) with
  | none => .ok draft
  | some setting => draft.set key (readSetting document path node setting)

theorem readEntry_tells {document : Document} {path : List Step} {node : Node} {config : Config}
    {setting : Setting} {draft : Draft Config} (told : Tells (config.block setting) node)
    (fresh : setting.name ∉ draft.seen) : readEntry document draft setting.name path node =
      .ok ⟨setting.copy config draft.value, setting.name :: draft.seen⟩ := by
  rw [readEntry, find?_name]
  simp only [readSetting_tells told]
  exact set_ok fresh

/-- Settings that are printed one after the other are copied one after the other. The induction is on
the settings; none of them has been seen before. -/
theorem foldEntries_settings (document : Document) {config : Config} {settings : List Setting}
    {nodes : List (Node × Node)} (told : TellsEntries (config.entries settings) nodes) (mark : Mark)
    (draft : Draft Config) (fresh : ∀ setting ∈ settings, setting.name ∉ draft.seen)
    (distinct : (settings.map Setting.name).Nodup) :
    ∃ seen, foldEntries document [] (readEntry document) draft (.mapping ⟨mark, none, none⟩ nodes) .config =
      .ok ⟨settings.foldl (fun other setting => setting.copy config other) draft.value, seen⟩ := by
  induction settings generalizing nodes draft with
  | nil =>
    obtain _ | _ := told
    exact ⟨draft.seen, rfl⟩
  | cons setting settings ih =>
    obtain _ | ⟨named, first, told⟩ := told
    rw [List.forall_mem_cons] at fresh
    rw [List.map_cons, List.nodup_cons] at distinct
    rw [foldEntries_cons _ mark named (readEntry_tells first fresh.1)]
    refine ih told _ (fun other member => ?_) distinct.2
    rw [List.mem_cons, not_or]
    exact ⟨fun same => distinct.1 (same ▸ List.mem_map_of_mem member), fresh.2 other member⟩

/-- Whatever the settings are, their printed form is read as the same settings. -/
theorem ofYaml_toYaml (config : Config) : ofYaml config.toYaml = .ok config := by
  obtain ⟨mark, nodes, told, read⟩ :=
    Document.read?_print (legible_entries config Setting.all) (by simp [entries, Setting.all])
  obtain ⟨seen, drafted⟩ := foldEntries_settings ⟨some (.mapping ⟨mark, none, none⟩ nodes)⟩ told mark
    (.start .default) (by simp [Draft.start]) (by decide)
  have settings : ofDocument ⟨some (.mapping ⟨mark, none, none⟩ nodes)⟩ = .ok config :=
    bind_eq_ok_iff.mpr ⟨_, drafted, rfl⟩
  rw [toYaml_eq, ofYaml, read]
  simp only [settings, mapError_ok]

end Config

end Colorization
