/-!
# Trees of files

The part of a file system that a module search looks at: folders with named entries, each a file or
a folder again. The contents of files do not matter.
-/

namespace LineCompletion

/-- An entry of a folder. -/
inductive FileEntry where
  /-- A file. -/
  | file
  /-- A folder with its entries. -/
  | folder (entries : List (String × FileEntry))

/-- The entries of a folder, by name. -/
abbrev Folder := List (String × FileEntry)

namespace Folder

/-- The entry of a name. -/
def find? (folder : Folder) (name : String) : Option FileEntry :=
  (List.find? (·.1 == name) folder).map (·.2)

/-- The folder with an entry put in place of the one of that name, or at the end. -/
def set (folder : Folder) (name : String) (entry : FileEntry) : Folder :=
  if folder.any (·.1 == name) then folder.map fun e ↦ if e.1 == name then (name, entry) else e
  else folder ++ [(name, entry)]

/-- The folder with an entry added at the end of a path, and the folders on the way. Where the same
kind of entry stands already nothing changes; where another kind is in the way nothing can be
added. -/
def add? (entry : FileEntry) : (path : List String) → Folder → Option Folder
  | [], folder => some folder
  | [name], folder =>
    match folder.find? name, entry with
    | none, _ => some (folder.set name entry)
    | some .file, .file | some (.folder _), .folder _ => some folder
    | _, _ => none
  | name :: rest, folder =>
    match folder.find? name with
    | none => (add? entry rest []).map fun inner ↦ folder.set name (.folder inner)
    | some .file => none
    | some (.folder inner) =>
      (add? entry rest inner).map fun inner ↦ folder.set name (.folder inner)

/-- The folder with an entry added at the end of a path, made one name after another. Two dots lead
back to the folder before; of the names reached so far, the innermost is given first. What could be
made in front of an obstacle stays. -/
def addAlong (entry : FileEntry) (reached : List String) : (path : List String) → Folder → Folder
  | [], folder => folder
  | name :: rest, folder =>
    if name == ".." then
      match reached with
      | [] => folder
      | _ :: reached => addAlong entry reached rest folder
    else
      let here := if rest.isEmpty then entry else .folder []
      match add? here (name :: reached).reverse folder with
      | none => folder
      | some folder => addAlong entry (name :: reached) rest folder

/-- Whether a path leads from the folder to a file. Two dots lead back to the folder around it; of
the folders around, the innermost is given first. -/
def hasFile (around : List Folder) : (path : List String) → Folder → Bool
  | [], _ => false
  | [name], folder =>
    match folder.find? name with
    | some .file => true
    | _ => false
  | name :: rest, folder =>
    if name == "" || name == "." then hasFile around rest folder
    else if name == ".." then
      match around with
      | [] => false
      | outer :: around => hasFile around rest outer
    else match folder.find? name with
      | some (.folder inner) => hasFile (folder :: around) rest inner
      | _ => false

end Folder

end LineCompletion
