import LineCompletion.Value.Flavour
import Mathlib.Algebra.Group.Nat.Defs

/-!
# What containers hold

What a lookup by a key finds in a container, for the two kinds that completion offers keys of.

**A sequence holds its items by their places.** The four sequences of the language differ in what
their items are: a list and a tuple hold them, a text has its characters, and a byte string has its
bytes as integers. `items?` gives the items of all four, and from then on there is one law for them:
a sequence is looked into by the places of its items (`lookup_of_items`). Whatever a key finds is
one of the items (`mem_of_itemAt`), an integer that is a place finds the item there (`itemAt_int`),
and a larger one is out of range (`itemAt_of_le`).

Keys of the language are integers of 64 bits, so a place is the integer it is meant to be only below
two to the power of 63. That is a hypothesis here.

**A mapping holds what stands beside its keys.** Whatever is found stands beside a key equal to the
one that was asked for (`exists_mem_of_lookup`), and a key that is text is found
(`exists_lookup_of_mem`), since it equals itself and nothing but the same text equals it
(`eq_of_keyEq_str`). That is not said of other keys, since a floating-point key that is not a number
does not equal itself and is never found.

**What passes for a sequence.** Lists and tuples are recognised as they are. Of other values the
kind is guessed, by asking for a key and for an index that nothing is expected to hold
(`Flavour.probe`). For a sequence the guess is right, unless the sequence is so long that the index
is a place in it (`probe_of_isSequence`, `flavour_of_items`).
-/

namespace LineCompletion

/-- A computation of two steps succeeds when both do. -/
theorem bind_eq_ok_iff {ε α β : Type} {x : Except ε α} {f : α → Except ε β} {b : β} :
    x >>= f = .ok b ↔ ∃ a, x = .ok a ∧ f a = .ok b := by
  cases x with
  | error cause => exact ⟨fun h ↦ absurd h (by simp [bind, Except.bind]), by simp⟩
  | ok a => simp [bind, Except.bind]

namespace Value

/-! ### Places -/

/-- A key names a place in the sequence, if it names one at all. -/
theorem lt_of_position {typeName : String} {length place : Nat} {key : Value}
    (h : position typeName length key = .ok place) : place < length := by
  have hspot : ∀ (spot : Int) (cause : LookupError),
      (if 0 ≤ spot ∧ spot < length then .ok spot.toNat else .error cause) = Except.ok place →
      place < length := by
    intro spot cause heq
    split at heq
    · have := Except.ok.inj heq
      omega
    · exact absurd heq (by simp)
  cases key with
  | int | bool => exact hspot _ _ h
  | _ => exact absurd h (by simp [position])

/-- An integer that is less than the length is a place. -/
theorem position_int {typeName : String} {length n : Nat} (hn : n < 2 ^ 63) (h : n < length) :
    position typeName length (.int (Int64.ofNat n)) = .ok n := by
  have hindex : (Int64.ofNat n).toInt = n := Int64.toInt_ofNat_of_lt hn
  rw [position]
  simp only [hindex, show ¬ (n : Int) < 0 by omega, if_false]
  rw [if_pos (by omega)]
  rfl

/-- An integer that is no less than the length is out of range. -/
theorem position_of_le {typeName : String} {length : Nat} {i : Int64} (h : length ≤ i.toInt) :
    position typeName length (.int i) = .error (.indexOutOfRange i) := by
  rw [position]
  simp only [show ¬ i.toInt < 0 by omega, if_false]
  rw [if_neg (by omega)]

section Items

variable {typeName : String} {items : List Value}

/-- What is found in a sequence is one of its items. -/
theorem mem_of_itemAt {key found : Value} (h : itemAt typeName items key = .ok found) :
    found ∈ items := by
  obtain ⟨place, hplace, hfound⟩ := bind_eq_ok_iff.1 h
  have hlt := lt_of_position hplace
  obtain rfl := Except.ok.inj hfound
  rw [List.getD_eq_getElem?_getD, List.getElem?_eq_getElem hlt]
  exact List.getElem_mem hlt

/-- An integer that is a place finds the item there. -/
theorem itemAt_int {n : Nat} (hn : n < 2 ^ 63) (h : n < items.length) :
    itemAt typeName items (.int (Int64.ofNat n)) = .ok items[n] := by
  rw [itemAt, position_int hn h]
  show Except.ok (items.getD n none) = _
  rw [List.getD_eq_getElem?_getD, List.getElem?_eq_getElem h]
  rfl

/-- An integer that is no less than the length is out of range. -/
theorem itemAt_of_le {i : Int64} (h : items.length ≤ i.toInt) :
    itemAt typeName items (.int i) = .error (.indexOutOfRange i) := by
  rw [itemAt, position_of_le h]
  rfl

/-- A text is not a place. -/
theorem itemAt_str (t : String) : itemAt typeName items (.str t) =
    .error (.typeMismatch typeName (Value.str t).typeName) := rfl

end Items

/-! ### Sequences -/

/-- Whether a value is a sequence of the language: its items have places. -/
def isSequence : Value → Bool
  | list _ | tuple _ | str _ | bytes _ => true
  | _ => false

/-- The items of a sequence by their places: those of a list or a tuple, the characters of a text,
and bytes as integers. -/
def items? : Value → Option (List Value)
  | list items | tuple items => some items
  | str text => some (text.toList.map fun c ↦ str (String.singleton c))
  | bytes data => some (data.map fun b ↦ int (Int64.ofNat b.toNat))
  | _ => Option.none

section Items

variable {v : Value} {items : List Value} (h : v.items? = some items) (host : Host)

include h

/-- A sequence is as long as it has items, be they characters or bytes. -/
theorem length?_of_items : v.length? host = some items.length := by
  cases v with
  | list | tuple => exact congrArg (some ·.length) (Option.some.inj h)
  | str text =>
    obtain rfl := Option.some.inj h
    rw [List.length_map, String.length_toList]
    rfl
  | bytes data =>
    obtain rfl := Option.some.inj h
    rw [List.length_map]
    rfl
  | _ => exact absurd h (by simp [items?])

/-- A sequence is looked into by the places of its items. -/
theorem lookup_of_items (key : Value) : v.lookup host key = itemAt v.typeName items key := by
  cases v with
  | list | tuple | str | bytes =>
    obtain rfl := Option.some.inj h
    rfl
  | _ => exact absurd h (by simp [items?])

end Items

section Sequence

variable {v : Value} (h : v.isSequence = true) (host : Host)

include h

/-- Every sequence has items. -/
theorem exists_items_of_isSequence : ∃ items, v.items? = some items := by
  cases v with
  | list | tuple | str | bytes => exact ⟨_, rfl⟩
  | _ => exact absurd h (by simp [isSequence])

/-- A sequence passes for nothing else under the two bogus subscripts. It passes for nothing at all
when it is so long that the index is a place in it. -/
theorem probe_of_isSequence :
    Flavour.probe host v = .sequence ∨ Flavour.probe host v = .unknown := by
  obtain ⟨items, hitems⟩ := exists_items_of_isSequence h
  rw [Flavour.probe, lookup_of_items hitems, probeKey, itemAt_str]
  dsimp only
  split
  · exact .inl rfl
  · exact .inr rfl

/-- A sequence passes for a sequence or for nothing. -/
theorem flavour_of_isSequence : v.flavour host = .sequence ∨ v.flavour host = .unknown := by
  have hprobe := probe_of_isSequence h host
  cases v with
  | list | tuple => exact .inl rfl
  | str | bytes => exact hprobe
  | _ => exact absurd h (by simp [isSequence])

end Sequence

/-- A sequence that does not reach the bogus index passes for one. -/
theorem flavour_of_items {v : Value} {items : List Value} (h : v.items? = some items)
    (hlength : items.length < 2 ^ 61) (host : Host) : v.flavour host = .sequence := by
  have hindex : (items.length : Int) ≤ (2305843009213693951 : Int64).toInt := by
    rw [show (2305843009213693951 : Int64).toInt = 2305843009213693951 by decide]
    omega
  have hprobe : Flavour.probe host v = .sequence := by
    rw [Flavour.probe, lookup_of_items h, probeKey, itemAt_str]
    dsimp only
    rw [lookup_of_items h, probeIndex, itemAt_of_le hindex]
  cases v with
  | list | tuple => rfl
  | str | bytes => exact hprobe
  | _ => exact absurd h (by simp [items?])

/-! ### Mappings -/

/-- Only a text equals a text as a key, and only the same one. -/
theorem eq_of_keyEq_str {t : String} {k : Value} (h : keyEq (.str t) k = true) : k = .str t := by
  cases k with
  | str u => rw [show t = u by simpa [keyEq] using h]
  | _ => exact absurd h (by simp [keyEq])

section Mapping

variable {pairs : List (Value × Value)}

/-- Whatever is found in a mapping stands beside a key that equals the one asked for. -/
theorem exists_mem_of_lookup {host : Host} {key found : Value}
    (h : (Value.dict pairs).lookup host key = .ok found) :
    ∃ k, (k, found) ∈ pairs ∧ keyEq k key = true := by
  rw [lookup] at h
  split at h
  · split at h
    · rename_i k value hfind
      obtain rfl := Except.ok.inj h
      have htest := List.find?_some hfind
      exact ⟨k, List.mem_of_find?_eq_some hfind, htest⟩
    · exact absurd h (by simp)
  · exact absurd h (by simp)

/-- A key that is text is found in the mapping. -/
theorem exists_lookup_of_mem (host : Host) {key : String} {value : Value}
    (h : (.str key, value) ∈ pairs) :
    ∃ found, (Value.dict pairs).lookup host (.str key) = .ok found := by
  rw [lookup, if_pos (by simp [isHashable])]
  split
  · exact ⟨_, rfl⟩
  · rename_i hfind
    have hother := List.find?_eq_none.1 hfind _ h
    exact absurd (by simp [keyEq]) hother

/-- A mapping with one key has nothing under others. -/
theorem eq_of_lookup_singleton {host : Host} {t : String} {value key found : Value}
    (h : (Value.dict [(.str t, value)]).lookup host key = .ok found) : key = .str t := by
  obtain ⟨k, hmem, hkey⟩ := exists_mem_of_lookup h
  obtain ⟨rfl, -⟩ := Prod.mk.inj (List.mem_singleton.1 hmem)
  exact eq_of_keyEq_str hkey

end Mapping

end Value

end LineCompletion
