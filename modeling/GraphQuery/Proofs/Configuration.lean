import GraphQuery.Toml.Settings
import GraphQuery.Proofs.Outcome
import GraphQuery.Proofs.Toml.Documents

/-! Configurations loaded from the file they were saved in. With a library that reads back what it wrote and
files that hold what was written, a load after a save is only the check of the stem. TOML documents are such a
library: a document has two sections that name every setting, so no default stands in for one. -/
namespace GraphQuery

namespace Config

section Files

variable {Path Disk : Type} {toml : TextFormat Config} {files : FileSystem Path Disk}

/-- A save succeeds with a text that the library wrote and the files took. -/
theorem save_eq_ok_iff {c : Config} {path : Path} {disk disk' : Disk} :
    c.save toml files path disk = (.ok (), disk') ↔
      ∃ text, toml.write c = .ok text ∧ files.write disk path text = (.ok (), disk') := by
  unfold save
  cases toml.write c with
  | error detail => simp
  | ok text =>
    simp only [Except.ok.injEq, exists_eq_left', Prod.ext_iff, Outcome.mapError_eq_ok_iff]

/-- Where the file can be read, and its text too, a load is the check of the stem. -/
theorem load_eq_of_read {c : Config} {path : Path} {disk : Disk} {text : String}
    (hfile : files.read disk path = .ok text) (htext : toml.read text = .ok c) :
    load toml files path disk =
      if Text.isIdentifier c.renderer.stem then .ok c else .error (.stemInvalid c.renderer.stem) := by
  have hread : (files.read disk path).mapError ConfigError.io = .ok text := Outcome.mapError_eq_ok_iff.mpr hfile
  have hdocument : (toml.read text).mapError ConfigError.document = .ok c := Outcome.mapError_eq_ok_iff.mpr htext
  rw [load, hread, Outcome.ok_bind, hdocument, Outcome.ok_bind, validate]
  split <;> rfl

/-- A configuration that was saved is loaded as it was if its stem can begin a name, and otherwise refused with the
stem; no other configuration comes of it. -/
theorem load_save (htoml : toml.ReadsBack) (hfiles : files.ReadsBack) {c : Config} {path : Path}
    {disk disk' : Disk} (hsave : c.save toml files path disk = (.ok (), disk')) :
    load toml files path disk' =
      (if Text.isIdentifier c.renderer.stem then .ok c else .error (.stemInvalid c.renderer.stem)) ∧
    (∀ d, load toml files path disk' = .ok d → d = c) ∧
    (ConfigError.stemInvalid c.renderer.stem).message =
      "Invalid configuration: Invalid anonymous parameter prefix '" ++ c.renderer.stem ++ "'" := by
  obtain ⟨text, hwrite, hfile⟩ := save_eq_ok_iff.mp hsave
  have hload := load_eq_of_read (hfiles disk path text disk' hfile) (htoml c text hwrite)
  refine ⟨hload, fun d hd => ?_, rfl⟩
  rw [hload] at hd
  split at hd
  · exact (Except.ok.inj hd).symm
  · cases hd

end Files

end Config

open Toml

/-- The settings of the log as they stand in a document. -/
def LogSettings.toSection (l : LogSettings) : Section where
  name := "log"
  settings := [
    ⟨"level", (writeString l.level).toList, .string l.level, by decide, Parser.denotes_string _⟩,
    ⟨"dir", (writeString l.dir).toList, .string l.dir, by decide, Parser.denotes_string _⟩,
    ⟨"file", (writeString l.file).toList, .string l.file, by decide, Parser.denotes_string _⟩,
    ⟨"max_file_size", (toString l.maxFileSize.toNat).toList, .integer l.maxFileSize.toNat, by decide,
      Parser.denotes_number _⟩,
    ⟨"max_files", (toString l.maxFiles.toNat).toList, .integer l.maxFiles.toNat, by decide, Parser.denotes_number _⟩]
  bare := by decide
  distinct := by simp

/-- The settings of the renderer as they stand in a document. -/
def RenderSettings.toSection (r : RenderSettings) : Section where
  name := "renderer"
  settings := [
    ⟨"anonymous_parameter_prefix", (writeString r.stem).toList, .string r.stem, by decide, Parser.denotes_string _⟩,
    ⟨"log_statements", (if r.logStatements then "true" else "false").toList, .boolean r.logStatements, by decide,
      Parser.denotes_boolean _⟩]
  bare := by decide
  distinct := by simp

namespace Config

def sections (c : Config) : List Section := [c.log.toSection, c.renderer.toSection]

theorem newline_document (c : Config) : '\n' :: c.document.toList = Toml.document c.sections := by
  simp only [document, line, String.toList_append]
  simp [Toml.document, sections, LogSettings.toSection, RenderSettings.toSection, Section.lines, Setting.line]

theorem count_toNat (key : String) (n : UInt64) : count key (.integer n.toNat) = .ok n := by
  have hlt : n.toNat < 18446744073709551616 := n.toNat_lt_size
  rw [count, if_pos (by omega), Int.toNat_natCast, UInt64.ofNat_toNat]

theorem known_of_mem {es : List (String × Toml)} {keys : List String} (name : String) (h : ∀ e ∈ es, e.1 ∈ keys) :
    known name keys es = .ok es := by
  refine if_pos (List.all_eq_true.mpr fun e he => ?_)
  rw [List.contains_iff_mem.mpr (h e he), Bool.true_or]

/-- A setting that is there is read, whatever its default. -/
theorem get_of_mem {α : Type} {es : List (String × Toml)} (h : (es.map Prod.fst).Nodup) (k : String) (v : Toml)
    (hmem : (k, v) ∈ es) (read : String → Toml → Except String α) (d : α) : get es k read d = read k v := by
  obtain ⟨before, behind, rfl⟩ := List.append_of_mem hmem
  rw [List.map_append] at h
  have hbefore : ∀ e ∈ before, (k != e.1) = true := by
    intro e he
    refine bne_iff_ne.mpr fun hk => ?_
    have hfirst := (List.nodup_cons.mp (List.nodup_middle.mp h)).1
    exact hfirst (List.mem_append_left _ (List.mem_map.mpr ⟨e, he, hk.symm⟩))
  rw [get, List.lookup_eq_some_iff.mpr ⟨before, behind, rfl, hbefore⟩]

theorem logOf_toSection (l : LogSettings) : logOf l.toSection.entry.2 = .ok l := by
  have hdistinct := l.toSection.nodup_entries
  rw [logOf, Section.entry, settings, known_of_mem _ (by simp [LogSettings.toSection, Setting.entry]), Outcome.ok_bind]
  dsimp only
  rw [get_of_mem hdistinct "level" (.string l.level) (.head _), string, Outcome.ok_bind,
    get_of_mem hdistinct "dir" (.string l.dir) (.tail _ (.head _)), string, Outcome.ok_bind,
    get_of_mem hdistinct "file" (.string l.file) (.tail _ (.tail _ (.head _))), string, Outcome.ok_bind,
    get_of_mem hdistinct "max_file_size" (.integer l.maxFileSize.toNat) (.tail _ (.tail _ (.tail _ (.head _)))),
    count_toNat, Outcome.ok_bind,
    get_of_mem hdistinct "max_files" (.integer l.maxFiles.toNat) (.tail _ (.tail _ (.tail _ (.tail _ (.head _))))),
    count_toNat, Outcome.ok_bind]
  rfl

theorem rendererOf_toSection (r : RenderSettings) : rendererOf r.toSection.entry.2 = .ok r := by
  have hdistinct := r.toSection.nodup_entries
  rw [rendererOf, Section.entry, settings, known_of_mem _ (by simp [RenderSettings.toSection, Setting.entry]),
    Outcome.ok_bind]
  dsimp only
  rw [get_of_mem hdistinct "anonymous_parameter_prefix" (.string r.stem) (.head _), string, Outcome.ok_bind,
    get_of_mem hdistinct "log_statements" (.boolean r.logStatements) (.tail _ (.head _)), boolean, Outcome.ok_bind]
  rfl

theorem nodup_names (c : Config) : (c.sections.map Section.name).Nodup := by
  simp [sections, LogSettings.toSection, RenderSettings.toSection]

theorem ofTable_sections (c : Config) : ofTable (c.sections.map Section.entry) = .ok c := by
  have hdistinct : ((c.sections.map Section.entry).map Prod.fst).Nodup := by
    rw [List.map_map]
    exact c.nodup_names
  have hkeys : ∀ e ∈ c.sections.map Section.entry, e.1 ∈ ["log", "renderer"] := by
    simp [sections, Section.entry, LogSettings.toSection, RenderSettings.toSection]
  rw [ofTable, known_of_mem _ hkeys, Outcome.ok_bind,
    get_of_mem hdistinct "log" c.log.toSection.entry.2 (.head _), logOf_toSection, Outcome.ok_bind,
    get_of_mem hdistinct "renderer" c.renderer.toSection.entry.2 (.tail _ (.head _)), rendererOf_toSection,
    Outcome.ok_bind]
  rfl

theorem ofDocument_document (c : Config) : ofDocument c.document = .ok c := by
  rw [ofDocument, parse?_document c.newline_document c.nodup_names]
  exact c.ofTable_sections

end Config

/-- Every document is read as the configuration it was written for. -/
theorem Toml.readsBack_format : format.ReadsBack := by
  intro c text h
  rw [write_format, Except.ok.injEq] at h
  rw [read_format, ← h, c.ofDocument_document]

namespace Config

/-- Settings with quotes of both kinds, in ones and in threes, with backslashes, line ends and other control
characters, and the largest counts. They are loaded as they were, and refused with a stem that can begin no name. -/
theorem load_save_hostile :
    let log : LogSettings := ⟨"a\"b\\c'd\n\r\t\x00\x7f", "'''\n", "\"\"\"'", 18446744073709551615, 0⟩
    let c : Config := ⟨log, ⟨"__p", true⟩⟩
    let d : Config := ⟨log, ⟨"1'\n", false⟩⟩
    c.save format .inMemory "config.toml" [] = (.ok (), [("config.toml", c.document)]) ∧
    load format .inMemory "config.toml" [("config.toml", c.document)] = .ok c ∧
    d.save format .inMemory "config.toml" [] = (.ok (), [("config.toml", d.document)]) ∧
    load format .inMemory "config.toml" [("config.toml", d.document)] = .error (.stemInvalid "1'\n") := by
  intro log c d
  have hc : c.save format .inMemory "config.toml" [] = (.ok (), [("config.toml", c.document)]) := rfl
  have hd : d.save format .inMemory "config.toml" [] = (.ok (), [("config.toml", d.document)]) := rfl
  have hloaded := (load_save readsBack_format FileSystem.readsBack_inMemory hc).1
  have hrefused := (load_save readsBack_format FileSystem.readsBack_inMemory hd).1
  rw [if_pos (by decide +kernel)] at hloaded
  rw [if_neg (by decide +kernel)] at hrefused
  exact ⟨hc, hloaded, hd, hrefused⟩

end Config
end GraphQuery
