import LineCompletion.Proofs.Completion.KeyPress
import LineCompletion.Proofs.Text.Slices

/-!
# The common prefix as a slice

The longest common prefix of suggestions, kept as a byte offset into the first of them. Each other
one is compared with the text up to that offset, character by character, and takes the offset back
to where the first difference begins (`narrow?`). Texts that agree as far as the shorter one goes
are told apart by their lengths in bytes only, which is right because one is then a beginning of the
other (`firstDifference?_indexed`).

**No slice fails.** A slice of a text exists only if its ends are between two characters, and there
might be an offset that is not: two characters of several bytes may begin with the same ones. Since
characters are compared and not bytes, the offset is always the length of a common prefix, so every
slice on the way is between two characters (`narrow?_eq_some`). The induction is on the suggestions,
and what it keeps is that the offset is the length of a prefix of the first one
(`foldlM_narrow?_eq_some`).

The last offset is the length of the common prefix (`commonStop?_eq_some`), and so it is between two
characters of every suggestion. That the prefix is the longest one is said independently of all this
(`LongestCommonPrefix`): all suggestions start with it, and it starts with whatever they all start
with. There is only one such text, so the order in which suggestions are compared does not matter
(`commonPrefix_perm`), although they are compared with the first of them.

Of no suggestions the common prefix is empty; the longest text that they all start with would not
exist. Clusters play no part here: the prefix may end between the characters of one.
-/

namespace LineCompletion

open Text

/-! ### Comparing two texts -/

/-- The characters of a text with the offsets at which they begin, the first at a given one. -/
def indexed (start : Nat) : List Char → List (Nat × Char)
  | [] => []
  | c :: s => (start, c) :: indexed (start + c.utf8Size) s

/-- Where two texts begin to differ, if they do before one of them ends. -/
def firstDifference? (s : List (Nat × Char)) (t : List Char) : Option Nat :=
  ((s.zip t).find? fun ((_, a), b) ↦ a != b).map fun ((index, _), _) ↦ index

/-- How much of the text up to an offset another text begins with, as an offset. -/
def narrow? (first : List Char) (stop : Nat) (other : List Char) : Option Nat := do
  let shared ← between? first 0 stop
  match firstDifference? (indexed 0 shared) other with
  | some index => some index
  | none => some (min stop (byteLength other))

/-- Where the common prefix of some suggestions ends in the first of them. -/
def commonStop? : List Suggestion → Option Nat
  | [] => some 0
  | first :: others =>
    others.foldlM (fun stop s ↦ narrow? first.value stop s.value) (byteLength first.value)

/-- The first difference is behind the common prefix. Without one, the shorter text is the common
prefix. -/
theorem firstDifference?_indexed (start : Nat) (s t : List Char) :
    (firstDifference? (indexed start s) t).getD (start + min (byteLength s) (byteLength t)) =
      start + byteLength (sharedPrefix s t) := by
  induction s generalizing start t with
  | nil => simp [firstDifference?, indexed, sharedPrefix]
  | cons a s ih =>
    cases t with
    | nil => simp [firstDifference?, indexed, sharedPrefix]
    | cons b t =>
      by_cases hab : a = b
      · obtain rfl := hab
        have htail : firstDifference? (indexed start (a :: s)) (a :: t) =
            firstDifference? (indexed (start + a.utf8Size) s) t := by
          simp [firstDifference?, indexed]
        have hmin : start + min (byteLength (a :: s)) (byteLength (a :: t)) =
            start + a.utf8Size + min (byteLength s) (byteLength t) := by
          rw [byteLength_cons, byteLength_cons]
          omega
        rw [htail, hmin, ih, sharedPrefix, if_pos rfl, byteLength_cons, Nat.add_assoc]
      · have hhead : firstDifference? (indexed start (a :: s)) (b :: t) = some start := by
          simp [firstDifference?, indexed, hab]
        rw [hhead, sharedPrefix, if_neg hab]
        rfl

/-- The slice of as many bytes as a beginning has is that beginning. -/
theorem between?_zero_append (s rest : List Char) :
    between? (s ++ rest) 0 (byteLength s) = some s := by
  have h := between?_offset (List.suffix_refl (s ++ rest))
  rwa [offset_self, offset_append] at h

/-- A prefix is a slice of the text. -/
theorem between?_zero_of_prefix {s text : List Char} (h : s <+: text) :
    between? text 0 (byteLength s) = some s := by
  obtain ⟨rest, rfl⟩ := h
  exact between?_zero_append s rest

/-- One step: from the length of a prefix to that of what the prefix and another text share. -/
theorem narrow?_eq_some {first shared : List Char} (h : shared <+: first) (other : List Char) :
    narrow? first (byteLength shared) other = some (byteLength (sharedPrefix shared other)) := by
  have hdifference := firstDifference?_indexed 0 shared other
  rw [Nat.zero_add, Nat.zero_add] at hdifference
  rw [narrow?, between?_zero_of_prefix h, ← hdifference]
  show (match firstDifference? (indexed 0 shared) other with
    | some index => some index
    | none => some (min (byteLength shared) (byteLength other)) : Option Nat) = _
  cases firstDifference? (indexed 0 shared) other <;> rfl

/-! ### Comparing them all -/

/-- What two texts share is a prefix of the first. -/
theorem sharedPrefix_prefix_left (s t : List Char) : sharedPrefix s t <+: s :=
  (prefix_sharedPrefix_iff.1 List.prefix_rfl).1

/-- All steps: the slices never fail, and the offset is the length of what all share. -/
theorem foldlM_narrow?_eq_some {first shared : List Char} (h : shared <+: first)
    (others : List Suggestion) :
    others.foldlM (fun stop s ↦ narrow? first stop s.value) (byteLength shared) =
      some (byteLength (others.foldl (fun shared s ↦ sharedPrefix shared s.value) shared)) := by
  induction others generalizing shared with
  | nil => rfl
  | cons s others ih =>
    rw [List.foldlM_cons, narrow?_eq_some h, List.foldl_cons]
    exact ih ((sharedPrefix_prefix_left shared s.value).trans h)

/-- The offset is found, and it is the length of the common prefix. -/
theorem commonStop?_eq_some (found : List Suggestion) :
    commonStop? found = some (byteLength (commonPrefix found)) := by
  cases found with
  | nil => rfl
  | cons first others => exact foldlM_narrow?_eq_some List.prefix_rfl others

/-- Every suggestion starts with the common prefix. -/
theorem commonPrefix_prefix {found : List Suggestion} {s : Suggestion} (h : s ∈ found) :
    commonPrefix found <+: s.value :=
  (longestCommonPrefix_commonPrefix (List.ne_nil_of_mem h)).starts _ (List.mem_map_of_mem h)

/-- Which prefix is shared by all does not depend on their order. -/
theorem commonPrefix_perm {found found' : List Suggestion} (h : found.Perm found') :
    commonPrefix found = commonPrefix found' := by
  cases found with
  | nil => rw [List.nil_perm.1 h]
  | cons s others =>
    have hlongest := longestCommonPrefix_commonPrefix (List.cons_ne_nil s others)
    have hne : found' ≠ [] := fun hnil ↦ List.cons_ne_nil s others (List.perm_nil.1 (hnil ▸ h))
    have hlongest' := longestCommonPrefix_commonPrefix hne
    have hmem : ∀ t, t ∈ (s :: others).map Suggestion.value ↔ t ∈ found'.map Suggestion.value :=
      fun _ ↦ (h.map _).mem_iff
    exact hlongest.unique ⟨fun t ht ↦ hlongest'.starts t ((hmem t).1 ht),
      fun other hother ↦ hlongest'.longest other fun t ht ↦ hother t ((hmem t).2 ht)⟩

/-- **The common prefix is the longest one**, and it cuts no character: the offset that is found for
it in the first suggestion is between two characters of each, and the slice up to there is the
prefix. It depends on what is suggested and not on the order. -/
theorem commonPrefix_longest :
    (∀ found : List Suggestion, found ≠ [] →
      LongestCommonPrefix (found.map Suggestion.value) (commonPrefix found) ∧
        ∃ stop, commonStop? found = some stop ∧ ∀ s ∈ found,
          AtBoundary s.value stop ∧ between? s.value 0 stop = some (commonPrefix found)) ∧
    (∀ found found' : List Suggestion, found.Perm found' →
      commonPrefix found = commonPrefix found') ∧
    commonPrefix [] = [] := by
  refine ⟨fun found hne ↦ ⟨longestCommonPrefix_commonPrefix hne, _, commonStop?_eq_some found,
    fun s hs ↦ ?_⟩, fun _ _ ↦ commonPrefix_perm, rfl⟩
  have hprefix := commonPrefix_prefix hs
  refine ⟨?_, between?_zero_of_prefix hprefix⟩
  obtain ⟨rest, hrest⟩ := hprefix
  exact ⟨_, rest, hrest.symm, rfl⟩

/-- Two letters of three bytes each are shared, and the third begins with the same two bytes in
both texts. -/
theorem commonPrefix_longest_wide :
    [Suggestion.replacing [] "ｎｕｓｈ".toList [], .replacing [] "ｎｕｌｌ".toList []] ≠ [] ∧
      [Suggestion.replacing [] "ｎｕｓｈ".toList [], .replacing [] "ｎｕｌｌ".toList []].Perm
        [.replacing [] "ｎｕｌｌ".toList [], .replacing [] "ｎｕｓｈ".toList []] ∧
      LongestCommonPrefix ["ｎｕｓｈ".toList, "ｎｕｌｌ".toList] "ｎｕ".toList ∧
      commonPrefix [.replacing [] "ｎｕｌｌ".toList [], .replacing [] "ｎｕｓｈ".toList []] =
        "ｎｕ".toList := by
  have hne : [Suggestion.replacing [] "ｎｕｓｈ".toList [], .replacing [] "ｎｕｌｌ".toList []] ≠ [] :=
    List.cons_ne_nil _ _
  have hperm : [Suggestion.replacing [] "ｎｕｓｈ".toList [],
      .replacing [] "ｎｕｌｌ".toList []].Perm
        [.replacing [] "ｎｕｌｌ".toList [], .replacing [] "ｎｕｓｈ".toList []] := .swap _ _ _
  exact ⟨hne, hperm, (commonPrefix_longest.1 _ hne).1, (commonPrefix_longest.2.1 _ _ hperm).symm⟩

end LineCompletion
