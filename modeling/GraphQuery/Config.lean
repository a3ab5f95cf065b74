import GraphQuery.Error
import GraphQuery.Render

/-! The configuration: settings of the log and of the renderer, saved in a file and loaded from one. The
library that turns settings into the text of a document and back is a parameter, and so are the files. -/
namespace GraphQuery

structure LogSettings where
  level : String
  dir : String
  file : String
  maxFileSize : UInt64
  maxFiles : UInt64
  deriving DecidableEq, Repr

def LogSettings.default : LogSettings := ⟨"info", "logs", "cypher-dsl", 104857600, 5⟩

structure Config where
  log : LogSettings
  renderer : RenderSettings
  deriving DecidableEq, Repr

/-- A library that writes values as text and reads them. It can refuse either, and says why. -/
structure TextFormat (α : Type) where
  write : α → Except String String
  read : String → Except String α

/-- What was written is read as it was. -/
def TextFormat.ReadsBack {α : Type} (format : TextFormat α) : Prop :=
  ∀ a text, format.write a = .ok text → format.read text = .ok a

/-- Files under their paths, in the states of a disk. A write that fails may leave any state behind. -/
structure FileSystem (Path Disk : Type) where
  read : Disk → Path → Except String String
  write : Disk → Path → String → Except String Unit × Disk

namespace FileSystem

/-- A file that was written holds the text that was written. -/
def ReadsBack {Path Disk : Type} (files : FileSystem Path Disk) : Prop :=
  ∀ disk path text disk', files.write disk path text = (.ok (), disk') → files.read disk' path = .ok text

/-- Files in a list. A new file hides those that were under its path. -/
def inMemory : FileSystem String (List (String × String)) where
  read disk path :=
    match disk.lookup path with
    | some text => .ok text
    | none => .error "No such file or directory (os error 2)"
  write disk path text := (.ok (), (path, text) :: disk)

theorem readsBack_inMemory : inMemory.ReadsBack := by
  intro disk path text disk' h
  cases h
  simp [inMemory]

end FileSystem

namespace Config

def default : Config := ⟨.default, .default⟩

/-- Generated names must be able to begin with the stem. -/
def validate (c : Config) : Except ConfigError Unit :=
  if Text.isIdentifier c.renderer.stem then .ok () else .error (.stemInvalid c.renderer.stem)

section Files

variable {Path Disk : Type} (toml : TextFormat Config) (files : FileSystem Path Disk)

/-- Read a configuration from a file and check it. -/
def load (path : Path) (disk : Disk) : Except ConfigError Config := do
  let text ← (files.read disk path).mapError .io
  let c ← (toml.read text).mapError .document
  c.validate
  return c

/-- Write a configuration to a file, as it is. Nothing is written if the library refuses it. -/
def save (c : Config) (path : Path) (disk : Disk) : Except ConfigError Unit × Disk :=
  match toml.write c with
  | .error detail => (.error (.document detail), disk)
  | .ok text =>
    let written := files.write disk path text
    (written.1.mapError .io, written.2)

end Files

end Config
end GraphQuery
