import LineCompletion.Text.Grapheme.Class

/-!
# Grapheme clusters

The extended grapheme clusters of Unicode 17: what a reader takes for one character. A cluster is
found by a single pass from the left. The pass keeps only what the boundary rules ask of the text
before the boundary (`Context`), so where a boundary falls depends on the text up to the character
after it and never on what follows.

What the rules ask for is the class of the last character, and how far three sequences have come
that are joined across several characters: pictographs with a joiner between them, consonants with a
linker between them, and halves of flags, which are joined two by two. Everything else is decided by
the classes of two neighbouring characters (`joinsClasses`).

`clusters_flatten` says that division loses nothing, and `ne_nil_of_mem_clusters` that no cluster is
empty. Both go by the pass (`divide`), which gives what still belongs to the cluster before it and
the clusters that follow.
-/

namespace LineCompletion.Text.Grapheme

/-! ### Context -/

/-- How far a joined pictograph has come. -/
inductive PictureState where
  /-- No pictograph to join. -/
  | none
  /-- A pictograph, and marks that extend it. -/
  | picture
  /-- The same, followed by a joiner. -/
  | joined
  deriving DecidableEq, Repr

/-- How far a conjunct has come. -/
inductive ConjunctState where
  /-- No consonant to join. -/
  | none
  /-- A consonant, and marks that extend it. -/
  | consonant
  /-- The same, with a linker among the marks. -/
  | linked
  deriving DecidableEq, Repr

/-- What the boundary rules ask of the text before a boundary. -/
structure Context where
  /-- Class of the last character. -/
  last : BreakClass
  /-- How far a joined pictograph has come. -/
  picture : PictureState
  /-- How far a conjunct has come. -/
  conjunct : ConjunctState
  /-- Whether the text ends in half a flag that still wants its other half. -/
  halfFlag : Bool

/-- The context that ends in a given character, after an earlier context if there is one. -/
def Context.after (before : Option Context) (c : Char) : Context where
  last := breakClass c
  picture :=
    if isPictograph c then .picture
    else match breakClass c, before.map Context.picture with
      | .extend, some .picture => .picture
      | .joiner, some .picture => .joined
      | _, _ => .none
  conjunct :=
    if isConjunctConsonant c then .consonant
    else match before.map Context.conjunct with
      | some .consonant =>
        if isConjunctLinker c then .linked else if extendsConjunct then .consonant else .none
      | some .linked => if isConjunctLinker c || extendsConjunct then .linked else .none
      | _ => .none
  halfFlag := breakClass c = .regional && !(before.any Context.halfFlag)
where
  /-- Whether the character may stand between a consonant and the linker after it. -/
  extendsConjunct : Bool :=
    (breakClass c = .extend || breakClass c = .joiner) && c != zeroWidthNonJoiner

/-! ### Boundaries -/

/-- Whether two neighbouring classes always belong together, whatever comes before. -/
def joinsClasses : BreakClass → BreakClass → Bool
  | .carriageReturn, .lineFeed => true
  | .carriageReturn, _ | .lineFeed, _ | .control, _ => false
  | _, .carriageReturn | _, .lineFeed | _, .control => false
  | _, .extend | _, .joiner | _, .spacing => true
  | .prepend, _ => true
  | .leading, .leading | .leading, .vowel | .leading, .openSyllable
  | .leading, .closedSyllable => true
  | .openSyllable, .vowel | .vowel, .vowel => true
  | .openSyllable, .trailing | .vowel, .trailing => true
  | .closedSyllable, .trailing | .trailing, .trailing => true
  | _, _ => false

/-- Whether a character belongs to the cluster that the text before it ends in. -/
def Context.joins (context : Context) (c : Char) : Bool :=
  joinsClasses context.last (breakClass c)
    || (context.conjunct = .linked && isConjunctConsonant c)
    || (context.picture = .joined && isPictograph c)
    || (context.halfFlag && breakClass c = .regional)

/-! ### Clusters -/

/-- Divides the text after a context: first what still belongs to the cluster before it, then the
clusters that follow. -/
def divide (context : Context) : List Char → List Char × List (List Char)
  | [] => ([], [])
  | c :: rest =>
    let (first, others) := divide (.after (some context) c) rest
    if context.joins c then (c :: first, others) else ([], (c :: first) :: others)

/-- The grapheme clusters of a text, in order. -/
def clusters : List Char → List (List Char)
  | [] => []
  | c :: rest =>
    let (first, others) := divide (.after none c) rest
    (c :: first) :: others

/-- How many grapheme clusters a text has. -/
def count (s : List Char) : Nat := (clusters s).length

/-- The text without its last clusters, as many of them as given. -/
def dropLast (n : Nat) (s : List Char) : List Char :=
  let all := clusters s
  (all.take (all.length - n)).flatten

/-- Division loses nothing behind a context either. -/
theorem divide_flatten (context : Context) (s : List Char) :
    (divide context s).1 ++ (divide context s).2.flatten = s := by
  induction s generalizing context with
  | nil => rfl
  | cons c rest ih =>
    have := ih (.after (some context) c)
    simp only [divide]
    split <;> simpa using this

/-- **The clusters of a text make up the text.** -/
@[simp] theorem clusters_flatten (s : List Char) : (clusters s).flatten = s := by
  cases s with
  | nil => rfl
  | cons c rest => simpa [clusters] using divide_flatten (.after none c) rest

/-- No cluster behind a context is empty. -/
theorem ne_nil_of_mem_divide {context : Context} {s cluster : List Char}
    (h : cluster ∈ (divide context s).2) : cluster ≠ [] := by
  induction s generalizing context with
  | nil => simp [divide] at h
  | cons c rest ih =>
    simp only [divide] at h
    split at h
    · exact ih h
    · rcases List.mem_cons.1 h with rfl | h
      · simp
      · exact ih h

/-- No cluster is empty. -/
theorem ne_nil_of_mem_clusters {s cluster : List Char} (h : cluster ∈ clusters s) :
    cluster ≠ [] := by
  cases s with
  | nil => simp [clusters] at h
  | cons c rest =>
    rcases List.mem_cons.1 h with rfl | h
    · simp
    · exact ne_nil_of_mem_divide h

end LineCompletion.Text.Grapheme
