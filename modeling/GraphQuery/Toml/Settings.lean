import GraphQuery.Config
import GraphQuery.Toml.Parser

/-! A library for configurations, for where one has to run: TOML documents with a section for the log and one
for the renderer. A setting that is missing takes its default, and unknown keys do not matter as long as
their values can be read. -/
namespace GraphQuery

namespace Config

def wrongType (key : String) : String := "wrong type of value for " ++ key

def string (key : String) : Toml → Except String String
  | .string s => .ok s
  | _ => .error (wrongType key)

/-- A whole number of 64 bits without a sign. -/
def count (key : String) : Toml → Except String UInt64
  | .integer n =>
    if 0 ≤ n ∧ n < 18446744073709551616 then .ok (UInt64.ofNat n.toNat) else .error (wrongType key)
  | _ => .error (wrongType key)

def boolean (key : String) : Toml → Except String Bool
  | .boolean b => .ok b
  | _ => .error (wrongType key)

/-- The entries of a table that has these settings and perhaps others, which must be readable. -/
def known (name : String) (keys : List String) (es : List (String × Toml)) :
    Except String (List (String × Toml)) :=
  if es.all fun e => keys.contains e.1 || e.2.isReadable then .ok es
  else .error ("a number that cannot be read in " ++ name)

/-- The settings of a section by key. An array gives them in their order instead, whatever comes
after them, and a date has none of them. -/
def settings (section_ : String) (keys : List String) : Toml → Except String (List (String × Toml))
  | .table es => known section_ keys es
  | .array vs => .ok (keys.zip vs)
  | .dateTime => .ok []
  | _ => .error (wrongType section_)

/-- The setting under a key, or its default. -/
def get {α : Type} (es : List (String × Toml)) (key : String) (read : String → Toml → Except String α)
    (default : α) : Except String α :=
  match es.lookup key with
  | some v => read key v
  | none => .ok default

def logOf (v : Toml) : Except String LogSettings := do
  let es ← settings "log" ["level", "dir", "file", "max_file_size", "max_files"] v
  let d := LogSettings.default
  let level ← get es "level" string d.level
  let dir ← get es "dir" string d.dir
  let file ← get es "file" string d.file
  let size ← get es "max_file_size" count d.maxFileSize
  let files ← get es "max_files" count d.maxFiles
  return ⟨level, dir, file, size, files⟩

def rendererOf (v : Toml) : Except String RenderSettings := do
  let es ← settings "renderer" ["anonymous_parameter_prefix", "log_statements"] v
  let d := RenderSettings.default
  let stem ← get es "anonymous_parameter_prefix" string d.stem
  let logStatements ← get es "log_statements" boolean d.logStatements
  return ⟨stem, logStatements⟩

def ofTable (es : List (String × Toml)) : Except String Config := do
  let es ← known "document" ["log", "renderer"] es
  let log ← get es "log" (fun _ => logOf) .default
  let renderer ← get es "renderer" (fun _ => rendererOf) .default
  return ⟨log, renderer⟩

/-- Read a configuration from the text of a document. -/
def ofDocument (text : String) : Except String Config :=
  match Toml.parse? text with
  | none => .error "not a TOML document"
  | some es => ofTable es

def line (key value : String) : String := key ++ " = " ++ value ++ "\n"

/-- The text of the document of a configuration. -/
def document (c : Config) : String :=
  "[log]\n"
    ++ line "level" (Toml.writeString c.log.level)
    ++ line "dir" (Toml.writeString c.log.dir)
    ++ line "file" (Toml.writeString c.log.file)
    ++ line "max_file_size" (toString c.log.maxFileSize.toNat)
    ++ line "max_files" (toString c.log.maxFiles.toNat)
    ++ "\n[renderer]\n"
    ++ line "anonymous_parameter_prefix" (Toml.writeString c.renderer.stem)
    ++ line "log_statements" (if c.renderer.logStatements then "true" else "false")

example : (ofDocument "").toOption = some default := by decide +kernel
example : (ofDocument default.document).toOption = some default := by decide +kernel
example : (ofDocument "a = 1e400").toOption = none := by decide +kernel
example : (ofDocument "renderer = ['__p', false, 1e400]").toOption = some default := by decide +kernel

end Config

namespace Toml

/-- Every configuration has a document. -/
def format : TextFormat Config where
  write c := .ok c.document
  read text := Config.ofDocument text

@[simp] theorem write_format (c : Config) : format.write c = .ok c.document := rfl

@[simp] theorem read_format (text : String) : format.read text = Config.ofDocument text := rfl

end Toml

end GraphQuery
