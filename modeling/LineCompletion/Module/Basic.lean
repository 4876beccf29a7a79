/-!
# Modules

What an import statement can name: modules built into the interpreter, and modules that were found
on the search path.
-/

namespace LineCompletion

/-- A module that was found. -/
structure ModuleInfo where
  /-- Its full name, with dots between its parts. -/
  name : String
  /-- Whether it may hold further modules. -/
  isPackage : Bool
  deriving DecidableEq, Repr

/-- The modules that can be imported. -/
structure Modules where
  /-- Names of those built into the interpreter. -/
  builtin : List String
  /-- Those found on the search path, in the order in which they are offered. -/
  found : List ModuleInfo
  deriving DecidableEq, Repr

/-- The modules built into the interpreter of the scripting language. -/
def builtinModules : List String := [
  "_abc", "_ast", "_codecs", "_collections", "_functools", "_imp", "_io", "_locale", "_operator",
  "_signal", "_sre", "_stat", "_string", "_thread", "_tracemalloc", "_warnings", "_weakref",
  "atexit", "builtins", "errno", "faulthandler", "gc", "itertools", "marshal", "posix", "pwd",
  "sys", "time"]

/-- The modules of a script without a search path. -/
def Modules.standard : Modules := ⟨builtinModules, []⟩

end LineCompletion
