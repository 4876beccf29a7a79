import LineCompletion.Text.Literal

/-!
# Settings

What completion looks up on every request: whether calls may be evaluated, whether import statements
are completed, and the quote for keys that are opened on the user's behalf.
-/

namespace LineCompletion

/-- The settings of completion. -/
structure Settings where
  /-- Expressions that hold a call are evaluated, which runs code of the host. -/
  allowCalls : Bool
  /-- Module names are completed in import statements. -/
  completeImports : Bool
  /-- The quote for keys, as it was set; only a quote has effect. -/
  rawQuote : Char
  deriving DecidableEq, Repr

namespace Settings

/-- Calls are blocked, imports are completed, and keys stand between single quotes. -/
def standard : Settings := ⟨false, true, '\''⟩

/-- The settings with calls allowed or blocked. -/
def withCalls (settings : Settings) (allow : Bool) : Settings :=
  { settings with allowCalls := allow }

/-- The settings with imports completed or not. -/
def withImports (settings : Settings) (complete : Bool) : Settings :=
  { settings with completeImports := complete }

/-- The settings with another quote for keys. Anything but a quote is ignored. -/
def withQuote (settings : Settings) (quote : Char) : Settings :=
  if Text.isQuote quote then { settings with rawQuote := quote } else settings

/-- The quote for keys: the one that was set, or a single quote when that is none. -/
def keyQuote (settings : Settings) : Char :=
  if Text.isQuote settings.rawQuote then settings.rawQuote else '\''

end Settings

end LineCompletion
