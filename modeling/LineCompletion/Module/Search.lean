import LineCompletion.Module.Basic
import LineCompletion.Module.FileTree
import LineCompletion.Text.Identifier

/-!
# Searching for modules

Modules are found in the folders of a search path. A file with the extension of sources is a module;
a folder that holds the marker of packages is a package, and its contents are searched as well. Only
names that an import statement can hold count.

Each folder is sorted by name, a module before a package of the same name, so the order in which a
folder lists its entries does not matter. A name that was found first hides what is found later
under it, together with everything inside; this is so within a folder, and from one folder of the
search path to the next, which are not sorted.

What is found is a list of trees of modules (`ModuleTree`), one for each name at the top, and then
flattened into full names, each module in front of what is inside it (`ModuleTree.listings`). So
hiding goes by the short name at one level of the tree, before anything has a full name.

The marker of packages is a path, which may lead into folders inside or around the one in question,
or from the top if it starts with a slash (`ModuleSearch.hasMarker`). A file with the name of the
marker is no module of its own (`ModuleSearch.markerStem`).
-/

namespace LineCompletion

/-- A folder of the search path. -/
structure SearchRoot where
  /-- What is in it. -/
  entries : Folder
  /-- The folders around it, the innermost first. -/
  around : List Folder := []

/-- A folder with nothing around it. -/
instance : Coe Folder SearchRoot := ⟨fun folder ↦ { entries := folder }⟩

/-- Where and how modules are searched for. -/
structure ModuleSearch where
  /-- The folders of the search path, in order. -/
  roots : List SearchRoot
  /-- Names of the modules built into the interpreter. -/
  builtin : List String
  /-- The extension of sources, without its dot. -/
  extension : String
  /-- The path of the file that makes its folder a package. -/
  marker : String
  /-- The folder that a path with a slash in front leads from. -/
  top : Folder := []

/-- A module with the modules inside it. -/
inductive ModuleTree where
  /-- A module from its name, whether it is a package, and what is inside it. -/
  | node (name : String) (isPackage : Bool) (inside : List ModuleTree)

namespace ModuleTree

/-- The name of the module, without those it is inside of. -/
def name : ModuleTree → String
  | node name _ _ => name

/-- Whether the module is a package. -/
def isPackage : ModuleTree → Bool
  | node _ isPackage _ => isPackage

/-- Whether a module comes before another in its folder, or is in the same place. -/
def precedes (a b : ModuleTree) : Bool :=
  a.name < b.name || (a.name == b.name && (!a.isPackage || b.isPackage))

/-- The first module of each name. -/
def distinct (taken : List String) : List ModuleTree → List ModuleTree
  | [] => []
  | m :: rest =>
    if taken.contains m.name then distinct taken rest else m :: distinct (m.name :: taken) rest

mutual

/-- The module and everything inside it, under the full name of what it is inside of. -/
def listing (outer : String) : ModuleTree → List ModuleInfo
  | node name isPackage inside =>
    ⟨outer ++ name, isPackage⟩ :: listings (outer ++ name ++ ".") inside

/-- Some modules and everything inside them, in order. -/
def listings (outer : String) : List ModuleTree → List ModuleInfo
  | [] => []
  | m :: rest => listing outer m ++ listings outer rest

end

end ModuleTree

namespace ModuleSearch

/-- The name of a file divided before its last dot. A dot at the very start divides nothing. -/
def splitExtension (name : String) : String × Option String :=
  let reversed := name.toList.reverse
  match reversed.span (· != '.') with
  | (extension, '.' :: c :: stem) =>
    (String.ofList (c :: stem).reverse, some (String.ofList extension.reverse))
  | _ => (name, none)

/-- Whether a folder holds the marker of packages. The folders around it are given, the innermost
first. -/
def hasMarker (search : ModuleSearch) (around : List Folder) (entries : Folder) : Bool :=
  let path := search.marker.splitOn "/"
  if search.marker.toList.head? = some '/' then Folder.hasFile [] path search.top
  else Folder.hasFile around path entries

/-- The name of the marker of packages without its extension: a file of that name is no module of
its own. -/
def markerStem (search : ModuleSearch) : String :=
  match (search.marker.splitOn "/").filter (fun part ↦ part != "" && part != ".") |>.getLast? with
  | some last => if last == ".." then "" else (splitExtension last).1
  | none => ""

/-- Modules in the order in which their folder lists them. -/
def sorted (modules : List ModuleTree) : List ModuleTree := modules.mergeSort ModuleTree.precedes

mutual

/-- The module that an entry of a folder is, if it is one. The folder and those around it are given,
the innermost first. -/
def entryModule? (search : ModuleSearch) (around : List Folder) (name : String) :
    FileEntry → Option ModuleTree
  | .file =>
    let (stem, extension) := splitExtension name
    if extension == some search.extension && stem != search.markerStem && Text.isName stem.toList
    then some (.node stem false []) else none
  | .folder entries =>
    if search.hasMarker around entries && Text.isName name.toList then
      let inside := entryModules search (entries :: around) entries
      some (.node name true (ModuleTree.distinct [] (sorted inside)))
    else none

/-- The modules among some entries of a folder. -/
def entryModules (search : ModuleSearch) (around : List Folder) :
    List (String × FileEntry) → List ModuleTree
  | [] => []
  | (name, entry) :: rest =>
    (entryModule? search around name entry).toList ++ entryModules search around rest

end

/-- The modules directly in a folder of the search path. -/
def rootModules (search : ModuleSearch) (root : SearchRoot) : List ModuleTree :=
  sorted (search.entryModules (root.entries :: root.around) root.entries)

/-- Everything found on the search path. -/
def found (search : ModuleSearch) : List ModuleInfo :=
  ModuleTree.listings ""
    (ModuleTree.distinct [] (search.roots.flatMap search.rootModules))

/-- The modules that can be imported. -/
def modules (search : ModuleSearch) : Modules := ⟨search.builtin, search.found⟩

end ModuleSearch

end LineCompletion
