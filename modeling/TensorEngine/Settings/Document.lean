import TensorEngine.Interchange

/-!
Contract: settings that are read from documents and files.

Owns:
- `Settings.ofDocument`, the settings in the section of a document;
- `Settings.ofFile`, the same for a file of a folder.

Does not own: the disk. A folder is given with its files.
-/

namespace TensorEngine

/-- A folder of files without subfolders. -/
structure Folder where
  files : List (String × ByteArray)

namespace Folder

/-- Reads what a path names from here on. Empty parts and single dots of a path stay in place.
Nothing is known of the outside, except that it is a directory. -/
def walk (folder : Folder) : List String → Except FileFault ByteArray
  | [] => .error .isDirectory
  | part :: rest =>
      if part = "" ∨ part = "." then folder.walk rest
      else if part = ".." then .error (if rest.isEmpty then .isDirectory else .notFound)
      else
        match folder.files.find? fun file => file.1 == part with
        | none => .error .notFound
        | some (_, contents) => if rest.isEmpty then .ok contents else .error .notDirectory

def read (folder : Folder) (path : String) : Except FileFault ByteArray :=
  if path = "" then .error .notFound else folder.walk (path.splitOn "/")

def readText (folder : Folder) (path : String) : Except FileFault String := do
  match String.fromUTF8? (← folder.read path) with
  | some text => return text
  | none => throw .notText

end Folder

namespace Settings

/-- The settings in a document: those of its section, or the default ones when it has none. -/
def ofDocument (document : String) : Except SettingsFault Settings := do
  let value ← (Json.read document).mapError .malformed
  let settings ← match value.field? sectionName with
    | none => pure {}
    | some found =>
        match Interchange.read? found with
        | some settings => pure settings
        | none => throw .badSection
  settings.validate
  return settings

def ofFile (folder : Folder) (path : String) : Except SettingsFault Settings := do
  let document ← (folder.readText path).mapError (.unreadable path)
  (ofDocument document).mapError (.unloadable path)

end Settings

end TensorEngine
