import LineCompletion.Buffer
import LineCompletion.Proofs.Text.Boundaries
import Mathlib.Order.Bounds.Basic

/-!
# A line with its cursor as a byte offset

A line buffer keeps its text in two halves, and so its cursor is always between two characters. In
memory the text is in one piece and the cursor is a number, which nothing keeps within the text.
Here every edit is written down for that form (`OffsetLine`), with slices that fail where they would
cut a character in two or reach beyond the end. `edit?_atOffset` says that an edit of a buffer does
just what it does in that form, and so a whole run of edits does (`run?_atOffset`): none of them
fails.

`isGreatest_setCursor` says where the cursor goes when it is moved: to the last boundary between
clusters that is not beyond the offset given.

**Two representations.** A buffer in two halves cannot be in a bad state, and that is why it is the
one that everything else works with. In the other form a bad state can be written down, and an edit
fails in it. `atOffset` takes a buffer to that form. So the statement that no edit fails is one
about a form in which it might, and it is shown for every edit in every buffer; by induction on the
edits it holds of a run.

**Deleting and moving go by clusters.** Both forms divide the text into clusters, the buffer by
splitting a list of clusters and the other one by reckoning with the offsets at which they begin
(`clusterStarts`). The lemmas on starts join them: the starts taken from the right end where the
clusters that are kept do (`getLast?_take_reverse_clusterStarts`), and those up to an offset end
where the clusters that fit do (`getLast?_takeWhile_clusterStarts`).

**Boundaries.** `IsBoundary` is about clusters, where `splitAtByte?` asks for characters only.
Moving the cursor goes to a boundary of the first kind. Inserting may leave the cursor at one that
is only of the second kind, since what was typed may join what comes behind it, and so nothing is
claimed there but that the cursor is between two characters.
-/

namespace LineCompletion

open Text

/-! ### Edits -/

/-- One thing that is done to a line. -/
inductive Edit where
  /-- Text is inserted at the cursor. -/
  | insert (text : List Char)
  /-- The whole line is replaced. -/
  | setText (text : List Char)
  /-- The cursor is moved to a byte offset. -/
  | setCursor (offset : Nat)
  /-- Clusters to the left of the cursor are deleted. -/
  | deleteLeft (count : Nat)
  /-- The line is emptied. -/
  | clear
  /-- The line is to be drawn again. -/
  | requestRedisplay
  /-- A listing is written above the line. -/
  | writeListing (listing : List Char)

namespace LineBuffer

/-- The buffer after an edit. -/
def edit (b : LineBuffer) : Edit → LineBuffer
  | .insert text => b.insert text
  | .setText text => b.setText text
  | .setCursor offset => b.setCursor offset
  | .deleteLeft count => b.deleteLeft count
  | .clear => b.clear
  | .requestRedisplay => b.requestRedisplay
  | .writeListing listing => b.writeListing listing

/-- The buffer after some edits. -/
def run (b : LineBuffer) (edits : List Edit) : LineBuffer := edits.foldl edit b

end LineBuffer

/-! ### Lines in one piece -/

/-- A line in one piece, with its cursor as a byte offset. -/
structure OffsetLine where
  /-- The whole line. -/
  text : List Char
  /-- The byte offset of the cursor. -/
  cursor : Nat
  /-- Columns of the terminal. -/
  width : Nat
  /-- The listings written so far, oldest first. -/
  listings : List (List Char)
  /-- How often the line was to be drawn again. -/
  redisplays : Nat

/-- The byte offsets at which clusters begin, the first of them at a given one. -/
def clusterStarts (start : Nat) : List (List Char) → List Nat
  | [] => []
  | cluster :: rest => start :: clusterStarts (start + byteLength cluster) rest

namespace OffsetLine

/-- A line with text in it and the cursor at its end. -/
def ofText (width : Nat) (text : List Char) : OffsetLine := ⟨text, byteLength text, width, [], 0⟩

/-- The line with text inserted at the cursor, which must be between two characters. -/
def insert? (l : OffsetLine) (text : List Char) : Option OffsetLine := do
  let (before, after) ← splitAtByte? l.text l.cursor
  return { l with text := before ++ text ++ after, cursor := l.cursor + byteLength text }

/-- Where the clusters begin that are deleted to the left of the cursor, which must be between two
characters: where the last of them begins, counted from the cursor. -/
def deletionStart? (l : OffsetLine) (count : Nat) : Option Nat := do
  let (before, _) ← splitAtByte? l.text l.cursor
  let starts := (clusterStarts 0 (Grapheme.clusters before)).reverse.take count
  return starts.getLast?.getD l.cursor

/-- The line without the bytes between two offsets. Both must be between two characters, and in
order. -/
def cut? (l : OffsetLine) (start stop : Nat) : Option OffsetLine := do
  let (before, _) ← splitAtByte? l.text start
  let (_, after) ← splitAtByte? l.text stop
  if start ≤ stop then return { l with text := before ++ after } else none

/-- The line with clusters to the left of the cursor deleted. -/
def deleteLeft? (l : OffsetLine) (count : Nat) : Option OffsetLine := do
  let start ← l.deletionStart? count
  { l with cursor := start }.cut? start l.cursor

/-- The line with the cursor moved to the start of the cluster that an offset lies in, or to the
end. -/
def setCursor (l : OffsetLine) (offset : Nat) : OffsetLine :=
  let offset := min offset (byteLength l.text)
  if offset = byteLength l.text then { l with cursor := offset }
  else
    let starts := (clusterStarts 0 (Grapheme.clusters l.text)).takeWhile (· ≤ offset)
    { l with cursor := starts.getLast?.getD 0 }

/-- The line after an edit, unless the edit slices it at an offset that is not between two
characters. -/
def edit? (l : OffsetLine) : Edit → Option OffsetLine
  | .insert text => l.insert? text
  | .setText text => some { l with text, cursor := byteLength text }
  | .setCursor offset => some (l.setCursor offset)
  | .deleteLeft count => l.deleteLeft? count
  | .clear => some { l with text := [], cursor := 0 }
  | .requestRedisplay => some { l with redisplays := l.redisplays + 1 }
  | .writeListing listing => some { l with listings := l.listings ++ [listing] }

/-- The line after some edits, unless one of them fails. -/
def run? (l : OffsetLine) (edits : List Edit) : Option OffsetLine := edits.foldlM edit? l

variable {l : OffsetLine} {offset : Nat}

/-- A cursor moved within the text goes to the last start of a cluster up to there. -/
theorem setCursor_of_lt (h : offset < byteLength l.text) :
    l.setCursor offset = { l with cursor :=
      ((clusterStarts 0 (Grapheme.clusters l.text)).takeWhile (· ≤ offset)).getLast?.getD 0 } := by
  have hmin : min offset (byteLength l.text) = offset := Nat.min_eq_left (Nat.le_of_lt h)
  simp only [setCursor, hmin, if_neg (Nat.ne_of_lt h)]

/-- A cursor moved to the end or beyond goes to the end. -/
theorem setCursor_of_le (h : byteLength l.text ≤ offset) :
    l.setCursor offset = { l with cursor := byteLength l.text } := by
  simp only [setCursor, Nat.min_eq_right h, if_true]

end OffsetLine

/-! ### Where clusters begin -/

section Starts

variable {clusters left right : List (List Char)}

/-- A cluster starts behind the bytes of those before it. -/
theorem getElem?_clusterStarts (start : Nat) (clusters : List (List Char)) (i : Nat) :
    (clusterStarts start clusters)[i]?.getD (start + byteLength clusters.flatten) =
      start + byteLength (clusters.take i).flatten := by
  induction clusters generalizing start i with
  | nil => simp [clusterStarts]
  | cons cluster rest ih =>
    cases i with
    | zero => rfl
    | succ i =>
      rw [clusterStarts, List.getElem?_cons_succ, List.take_succ_cons, List.flatten_cons,
        List.flatten_cons, byteLength_append, byteLength_append, ← Nat.add_assoc, ih,
        ← Nat.add_assoc]

/-- Each cluster has its start. -/
theorem length_clusterStarts (start : Nat) (clusters : List (List Char)) :
    (clusterStarts start clusters).length = clusters.length := by
  induction clusters generalizing start with
  | nil => rfl
  | cons cluster rest ih => rw [clusterStarts, List.length_cons, List.length_cons, ih]

/-- The last of the starts taken from the right. -/
theorem getLast?_take_reverse_clusterStarts (clusters : List (List Char)) (count : Nat) :
    ((clusterStarts 0 clusters).reverse.take count).getLast?.getD (byteLength clusters.flatten) =
      byteLength (clusters.take (clusters.length - count)).flatten := by
  have hget := getElem?_clusterStarts 0 clusters (clusters.length - count)
  rw [Nat.zero_add, Nat.zero_add] at hget
  rw [List.take_reverse, List.getLast?_reverse, List.head?_drop, length_clusterStarts, hget]

/-- The starts up to an offset that is not behind all clusters. -/
theorem getLast?_takeWhile_clusterStarts (start : Nat) {bytes : Nat}
    (h : bytes < byteLength clusters.flatten) :
    ((clusterStarts start clusters).takeWhile (· ≤ start + bytes)).getLast? =
      some (start + byteLength (LineBuffer.splitClusters clusters bytes).1.flatten) := by
  induction clusters generalizing start bytes with
  | nil => exact absurd h (Nat.not_lt_zero _)
  | cons cluster rest ih =>
    rw [clusterStarts, List.takeWhile_cons_of_pos (by simp), LineBuffer.splitClusters]
    rw [List.flatten_cons, byteLength_append] at h
    by_cases hfits : byteLength cluster ≤ bytes
    · have hrest : bytes - byteLength cluster < byteLength rest.flatten := by omega
      have hbytes : start + bytes = start + byteLength cluster + (bytes - byteLength cluster) := by
        omega
      rw [hbytes, List.getLast?_cons, ih _ hrest, if_pos hfits]
      show some (start + byteLength cluster + _) = some (start + byteLength (cluster ++ _))
      rw [byteLength_append, Nat.add_assoc]
    · -- The next cluster, if there is one, begins beyond the offset.
      have hstop : (clusterStarts (start + byteLength cluster) rest).takeWhile
          (· ≤ start + bytes) = [] := by
        cases rest with
        | nil => rfl
        | cons next rest =>
          rw [clusterStarts, List.takeWhile_cons_of_neg]
          rw [decide_eq_true_eq]
          omega
      rw [hstop, if_neg hfits]
      rfl

end Starts

/-! ### Edits on both sides -/

namespace LineBuffer

/-- The buffer in one piece. -/
def atOffset (b : LineBuffer) : OffsetLine := ⟨b.text, b.cursor, b.width, b.listings, b.redisplays⟩

/-- **The cursor is between two characters**, and within the text. -/
theorem splitAtByte?_cursor (b : LineBuffer) :
    splitAtByte? b.text b.cursor = some (b.before, b.after) :=
  splitAtByte?_append b.before b.after

/-- The cursor is within the text. -/
theorem cursor_le (b : LineBuffer) : b.cursor ≤ byteLength b.text := by
  rw [cursor, text, byteLength_append]
  exact Nat.le_add_right ..

/-- Inserting does the same in both forms. -/
theorem insert?_atOffset (b : LineBuffer) (s : List Char) :
    b.atOffset.insert? s = some (b.insert s).atOffset := by
  rw [OffsetLine.insert?, atOffset, splitAtByte?_cursor]
  simp [atOffset, insert, text, cursor]

/-- Deleting starts where the cursor is afterwards. -/
theorem deletionStart?_atOffset (b : LineBuffer) (count : Nat) :
    b.atOffset.deletionStart? count = some (b.deleteLeft count).cursor := by
  have hstart := getLast?_take_reverse_clusterStarts (Grapheme.clusters b.before) count
  rw [Grapheme.clusters_flatten] at hstart
  rw [OffsetLine.deletionStart?, atOffset, splitAtByte?_cursor]
  exact congrArg some hstart

theorem exists_before_eq_append (b : LineBuffer) (count : Nat) :
    ∃ deleted, b.before = (b.deleteLeft count).before ++ deleted := by
  refine ⟨((Grapheme.clusters b.before).drop
    ((Grapheme.clusters b.before).length - count)).flatten, ?_⟩
  show b.before = List.flatten _ ++ _
  rw [← List.flatten_append, List.take_append_drop, Grapheme.clusters_flatten]

/-- Deleting does the same in both forms. -/
theorem deleteLeft?_atOffset (b : LineBuffer) (count : Nat) :
    b.atOffset.deleteLeft? count = some (b.deleteLeft count).atOffset := by
  obtain ⟨deleted, hbefore⟩ := b.exists_before_eq_append count
  have hstart : splitAtByte? b.text (b.deleteLeft count).cursor =
      some ((b.deleteLeft count).before, deleted ++ b.after) := by
    rw [text, hbefore, List.append_assoc]
    exact splitAtByte?_append ..
  have hle : (b.deleteLeft count).cursor ≤ b.cursor := by
    rw [cursor, cursor, hbefore, byteLength_append]
    exact Nat.le_add_right ..
  rw [OffsetLine.deleteLeft?, deletionStart?_atOffset]
  show OffsetLine.cut? _ _ b.cursor = _
  rw [OffsetLine.cut?, atOffset, hstart, splitAtByte?_cursor]
  exact if_pos hle

theorem cursor_setCursor (b : LineBuffer) (offset : Nat) : (b.setCursor offset).cursor =
    byteLength (splitClusters (Grapheme.clusters b.text) offset).1.flatten := rfl

/-- All clusters fit into as many bytes as they have. -/
theorem splitClusters_of_le {clusters : List (List Char)} {bytes : Nat}
    (h : byteLength clusters.flatten ≤ bytes) : splitClusters clusters bytes = (clusters, []) := by
  induction clusters generalizing bytes with
  | nil => rfl
  | cons cluster rest ih =>
    rw [List.flatten_cons, byteLength_append] at h
    rw [splitClusters, if_pos (by omega), ih (by omega)]

/-- Moving the cursor does the same in both forms. -/
theorem setCursor_atOffset (b : LineBuffer) (offset : Nat) :
    b.atOffset.setCursor offset = (b.setCursor offset).atOffset := by
  have hmoved : (b.setCursor offset).atOffset =
      { b.atOffset with cursor := (b.setCursor offset).cursor } := by
    rw [atOffset, text_setCursor]
    rfl
  have hflatten : byteLength (Grapheme.clusters b.text).flatten = byteLength b.text := by
    rw [Grapheme.clusters_flatten]
  rw [hmoved, cursor_setCursor]
  rcases Nat.lt_or_ge offset (byteLength b.text) with hlt | hge
  · have hlast := getLast?_takeWhile_clusterStarts 0 (hflatten ▸ hlt)
    rw [Nat.zero_add, Nat.zero_add] at hlast
    have htext : b.atOffset.text = b.text := rfl
    rw [OffsetLine.setCursor_of_lt hlt, htext, hlast]
    rfl
  · rw [OffsetLine.setCursor_of_le hge, splitClusters_of_le (hflatten ▸ hge), hflatten]
    rfl

/-- **An edit of a line in one piece never fails**, and does what it does to the buffer. -/
theorem edit?_atOffset (b : LineBuffer) (e : Edit) :
    b.atOffset.edit? e = some (b.edit e).atOffset := by
  cases e with
  | insert s => exact b.insert?_atOffset s
  | setText s => simp [OffsetLine.edit?, edit, atOffset, setText, text, cursor]
  | setCursor offset => exact congrArg some (b.setCursor_atOffset offset)
  | deleteLeft count => exact b.deleteLeft?_atOffset count
  | clear => rfl
  | requestRedisplay => rfl
  | writeListing listing => rfl

/-- **A run of edits does the same in both forms**, and none of them fails. -/
theorem run?_atOffset (b : LineBuffer) (edits : List Edit) :
    b.atOffset.run? edits = some (b.run edits).atOffset := by
  induction edits generalizing b with
  | nil => rfl
  | cons e edits ih =>
    rw [OffsetLine.run?, List.foldlM_cons, edit?_atOffset]
    exact ih (b.edit e)

/-! ### Moving the cursor -/

/-- A byte offset is a boundary between clusters of a text, or one of its ends. -/
def IsBoundary (text : List Char) (offset : Nat) : Prop :=
  ∃ left right, Grapheme.clusters text = left ++ right ∧ offset = byteLength left.flatten

/-- The clusters that fit take no more bytes than there are. -/
theorem byteLength_splitClusters_le (clusters : List (List Char)) (bytes : Nat) :
    byteLength (splitClusters clusters bytes).1.flatten ≤ bytes := by
  induction clusters generalizing bytes with
  | nil => exact Nat.zero_le _
  | cons cluster rest ih =>
    rw [splitClusters]
    split
    · have hrest := ih (bytes - byteLength cluster)
      show byteLength (cluster ++ _) ≤ bytes
      rw [byteLength_append]
      omega
    · exact Nat.zero_le _

/-- What fits is among the clusters that fit. -/
theorem le_byteLength_splitClusters {left right : List (List Char)} (bytes : Nat)
    (h : byteLength left.flatten ≤ bytes) :
    byteLength left.flatten ≤ byteLength (splitClusters (left ++ right) bytes).1.flatten := by
  induction left generalizing bytes with
  | nil => exact Nat.zero_le _
  | cons cluster left ih =>
    rw [List.flatten_cons, byteLength_append] at h
    have hle := ih (bytes - byteLength cluster) (by omega)
    rw [List.cons_append, splitClusters, if_pos (by omega)]
    show byteLength (cluster ++ left.flatten) ≤ byteLength (cluster ++ _)
    rw [byteLength_append, byteLength_append]
    exact Nat.add_le_add_left hle _

/-- **The cursor moves to the last boundary that is not beyond the offset** and not beyond the end
of the text. -/
theorem isGreatest_setCursor (b : LineBuffer) (offset : Nat) :
    IsGreatest {n | IsBoundary b.text n ∧ n ≤ min offset (byteLength b.text)}
      (b.setCursor offset).cursor := by
  have hend : (b.setCursor offset).cursor ≤ byteLength b.text :=
    b.text_setCursor offset ▸ (b.setCursor offset).cursor_le
  refine ⟨⟨⟨_, _, (splitClusters_append ..).symm, b.cursor_setCursor offset⟩,
    Nat.le_min.2 ⟨byteLength_splitClusters_le .., hend⟩⟩, ?_⟩
  rintro n ⟨⟨left, right, hclusters, rfl⟩, hn⟩
  rw [cursor_setCursor, hclusters]
  exact le_byteLength_splitClusters _ (Nat.le_min.1 hn).1

/-! ### Runs -/

/-- **Deleting twice is deleting as much at once.** -/
theorem deleteLeft_deleteLeft (b : LineBuffer) (m n : Nat) :
    (b.deleteLeft m).deleteLeft n = b.deleteLeft (m + n) := by
  show { b with before := Grapheme.dropLast n (Grapheme.dropLast m b.before) } = _
  rw [Grapheme.dropLast_dropLast]
  rfl

/-- **No edit fails, in whatever order they come.** After any run of edits the cursor is within the
text and between two characters. What is inserted or deleted then leaves the text after the cursor
alone, a cursor that is moved goes to the last boundary up to where it was to go, and clusters
deleted in two steps are those deleted in one. -/
theorem run_edits (width : Nat) (text : List Char) (edits : List Edit) :
    let b := (ofText width text).run edits
    (OffsetLine.ofText width text).run? edits = some b.atOffset ∧
      b.cursor ≤ byteLength b.text ∧
      splitAtByte? b.text b.cursor = some (b.before, b.after) ∧
      (∀ s, splitAtByte? (b.insert s).text (b.insert s).cursor = some (b.before ++ s, b.after)) ∧
      (∀ n, splitAtByte? (b.deleteLeft n).text (b.deleteLeft n).cursor =
        some (Grapheme.dropLast n b.before, b.after)) ∧
      (∀ offset, (b.setCursor offset).text = b.text ∧
        IsGreatest {n | IsBoundary b.text n ∧ n ≤ min offset (byteLength b.text)}
          (b.setCursor offset).cursor) ∧
      ∀ m n, (b.deleteLeft m).deleteLeft n = b.deleteLeft (m + n) := by
  intro b
  have hofText : OffsetLine.ofText width text = (ofText width text).atOffset := by
    simp [OffsetLine.ofText, atOffset, ofText, LineBuffer.text, cursor]
  exact ⟨hofText ▸ run?_atOffset _ edits, b.cursor_le, b.splitAtByte?_cursor,
    fun s ↦ (b.insert s).splitAtByte?_cursor, fun n ↦ (b.deleteLeft n).splitAtByte?_cursor,
    fun offset ↦ ⟨b.text_setCursor offset, b.isGreatest_setCursor offset⟩, b.deleteLeft_deleteLeft⟩

end LineBuffer

end LineCompletion
