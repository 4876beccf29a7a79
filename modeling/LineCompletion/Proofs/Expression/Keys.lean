import LineCompletion.Proofs.Expression.Continuation
import LineCompletion.Proofs.Expression.Meaning
import LineCompletion.Proofs.Value.Steps

/-!
# Keys written out

What comes of a key that is written behind an expression as it is: a text between quotes, the digits
of an index. A text is read back as itself when it is the body of a literal and none of its
backslashes begins an escape (`Legible`). Any other one is either read as another text, or its
literal ends early and what is left of it goes on from there; but no steps from a shorter text lead
to the key (`evaluate_quoted_ne_ok`). An index is read back as long as it is a signed 64-bit
integer, and not behind a quote that nothing closes.

**Two directions.** That a legible key is found is a matter of spelling: the key spells a literal,
and a literal in brackets is a subscript (`evaluate_quoted_eq_ok_iff`). That another one is not
found has to exclude everything else that the text might mean. So it goes by reading. A text with a
bracket behind it can have a value only if a key is read behind the bracket, however the text goes
on after that (`exists_lookup_of_evaluate`), and this key begins with what is read first there. For
a text between quotes that is a literal.

**What goes on from a literal.** The literal may end early, at a quote inside the key, and the rest
of the key may make sense as steps behind it: a member, a subscript, another literal in brackets.
Then the key that is looked up is not a literal but what these steps give, and it might be the right
text by chance. It is not, because the steps that values allow never make a text longer and never
put a quote into it (`keptBySteps_fallsShort`): the part in front of the quote is too short, and
what is as long as the key has no quote in it.

**Indices.** Digits are read as an integer, and an integer has 64 bits. That is all that has to be
asked of an index, and for the places of a sequence it holds by far. A quote that is typed behind
the bracket and not closed spoils any index (`evaluate_unclosed_ne_ok`).
-/

namespace LineCompletion

open Text

/-! ### Expressions that go on from others -/

/-- An expression that goes on from another one by members, subscripts and calls. -/
inductive Expr.GoesOn (base : Expr) : Expr → Prop
  /-- It ends where the other one does. -/
  | refl : GoesOn base base
  /-- With a member. -/
  | member {e : Expr} {name : String} (h : GoesOn base e) : GoesOn base (.member e name)
  /-- With a subscript. -/
  | subscript {e key : Expr} (h : GoesOn base e) : GoesOn base (.subscript e key)
  /-- With a call. -/
  | call {e : Expr} {args : List Expr} (h : GoesOn base e) : GoesOn base (.call e args)

/-- What is read behind an expression goes on from it. -/
theorem Expr.GoesOn.of_readSteps {inner : ExprReader} {base e e' : Expr} {s rest : List Char}
    (h : base.GoesOn e) (hread : readSteps inner e s = .ok (e', rest)) : base.GoesOn e' := by
  fun_induction readSteps inner e s generalizing e' rest with
  | case1 => exact absurd hread (by simp)
  | case2 e s afterDot htrim name left hname ih => exact ih h.member hread
  | case3 => exact absurd hread (by simp)
  | case4 e s inside htrim key left hrun more hclose ih => exact ih h.subscript hread
  | case5 => exact absurd hread (by simp)
  | case6 => exact absurd hread (by simp)
  | case7 e s inside htrim args ended left hargs ih => exact ih h.call hread
  | case8 => exact (Prod.mk.inj (Except.ok.inj hread)).1 ▸ h

section Steps

variable {host : Host} {ns : Namespace}

/-- What steps keep of a value is kept by an expression that takes them. -/
theorem Expr.GoesOn.eval {base e : Expr} (h : base.GoesOn e) {P : Value → Prop}
    (hkept : Value.KeptBySteps host P) (hbase : ∀ v, base.eval host ns = .ok v → P v) {v : Value}
    (hv : e.eval host ns = .ok v) : P v := by
  induction h generalizing v with
  | refl => exact hbase v hv
  | member h ih =>
    obtain ⟨w, hw, hstep⟩ := bind_eq_ok_iff.1 hv
    exact hkept.member (ih hw) (memberStep_eq_ok_iff.1 hstep)
  | subscript h ih =>
    obtain ⟨w, hw, hrest⟩ := bind_eq_ok_iff.1 hv
    obtain ⟨k, hk, hstep⟩ := bind_eq_ok_iff.1 hrest
    exact hkept.lookup (ih hw) (lookupStep_eq_ok_iff.1 hstep)
  | call h ih =>
    obtain ⟨w, hw, hrest⟩ := bind_eq_ok_iff.1 hv
    obtain ⟨args, hargs, hstep⟩ := bind_eq_ok_iff.1 hrest
    exact hkept.call (ih hw) hstep

end Steps

/-! ### A bracket behind an expression -/

/-- What a reader reads begins with a name, a literal or brackets, and goes on from there. -/
theorem exists_readPrimary_of_run {depth : Nat} {s rest : List Char} {e : Expr}
    (h : (ExprReader.ofDepth (depth + 1)).run s = .ok (e, rest)) :
    ∃ first left, readPrimary (ExprReader.ofDepth depth) s = .ok (first, left) ∧
      first.GoesOn e := by
  rw [ExprReader.run_ofDepth_succ] at h
  split at h
  · exact absurd h (by simp)
  · rename_i first left hfirst
    exact ⟨first, left, hfirst, Expr.GoesOn.refl.of_readSteps h⟩

/-- Where a square bracket comes next, a key is read behind it, and all else goes on from the
subscript. -/
theorem exists_key_of_readSteps {depth : Nat} {s inside rest : List Char} {e e' : Expr}
    (htrim : trimStart s = '[' :: inside)
    (h : readSteps (ExprReader.ofDepth (depth + 1)) e s = .ok (e', rest)) :
    ∃ key first left, readPrimary (ExprReader.ofDepth depth) inside = .ok (first, left) ∧
      first.GoesOn key ∧ (Expr.subscript e key).GoesOn e' := by
  rw [readSteps] at h
  split at h
  · exact absurd (List.cons.inj (htrim.symm.trans ‹_›)).1 (by decide)
  · rename_i heq
    obtain ⟨-, rfl⟩ := List.cons.inj (htrim.symm.trans heq)
    split at h
    · exact absurd h (by simp)
    · rename_i key left hrun
      obtain ⟨first, mid, hfirst, hkey⟩ := exists_readPrimary_of_run hrun
      split at h
      · exact ⟨key, first, mid, hfirst, hkey, Expr.GoesOn.refl.of_readSteps h⟩
      · exact absurd h (by simp)
  · exact absurd (List.cons.inj (htrim.symm.trans ‹_›)).1 (by decide)
  · rename_i _ hbracket _
    exact absurd htrim (hbracket inside)

/-- The same for a whole text. -/
theorem exists_key_of_readExpr {base rest : List Char} {e e' : Expr} (hbase : readExpr base = .ok e)
    (h : readExpr (base ++ '[' :: rest) = .ok e') :
    ∃ depth key first left, readPrimary (ExprReader.ofDepth depth) rest = .ok (first, left) ∧
      first.GoesOn key ∧ (Expr.subscript e key).GoesOn e' := by
  obtain ⟨hnesting, before, t, after, rfl, hbefore, ht, hafter⟩ := readExpr_eq_ok_iff.1 hbase
  obtain ⟨depth, hdepth⟩ : ∃ depth, maxNesting = depth + 2 := ⟨_, rfl⟩
  have htext : before ++ t ++ after ++ '[' :: rest = before ++ (t ++ (after ++ '[' :: rest)) := by
    simp
  rw [hdepth] at hnesting
  rw [readExpr, hdepth, htext, ht.reads.run_eq (Nat.le_of_lt_succ hnesting) hbefore
    (follows_step hafter (.inl rfl) rest)] at h
  split at h
  · exact absurd h (by simp)
  · rename_i whole left hread
    split at h
    · obtain rfl := Except.ok.inj h
      exact ⟨depth,
        exists_key_of_readSteps (trimStart_append_cons hafter (by decide) rest) hread⟩
    · exact absurd h (by simp)

section Evaluate

variable {host : Host} {ns : Namespace} {base : List Char} {v : Value}

/-- What a text with a bracket behind it needs for a value: a key that can be read, and a value
under that key. -/
theorem exists_lookup_of_evaluate (h : Evaluator.standard host (String.ofList base) ns = .ok v)
    {rest : List Char} {found : Value}
    (hfound : Evaluator.standard host (String.ofList (base ++ '[' :: rest)) ns = .ok found) :
    ∃ depth key first left k w, readPrimary (ExprReader.ofDepth depth) rest = .ok (first, left) ∧
      first.GoesOn key ∧ key.eval host ns = .ok k ∧ v.lookup host k = .ok w := by
  obtain ⟨e, he, hv⟩ := evaluate_eq_ok_iff.1 h
  obtain ⟨e', he', hvalue⟩ := evaluate_eq_ok_iff.1 hfound
  obtain ⟨depth, key, first, left, hfirst, hkey, hgoes⟩ := exists_key_of_readExpr he he'
  -- If the subscript had no value, nothing that goes on from it would have one.
  have hsubscript : ∃ w, (Expr.subscript e key).eval host ns = .ok w := by
    by_contra hnone
    exact hgoes.eval (P := fun _ ↦ False) ⟨fun h _ ↦ h, fun h _ ↦ h, fun h _ ↦ h⟩
      (fun w hw ↦ hnone ⟨w, hw⟩) hvalue
  obtain ⟨w, hw⟩ := hsubscript
  obtain ⟨v', hv', hrest⟩ := bind_eq_ok_iff.1 hw
  obtain ⟨k, hk, hstep⟩ := bind_eq_ok_iff.1 hrest
  obtain rfl := Except.ok.inj (hv.symm.trans hv')
  exact ⟨depth, key, first, left, k, w, hfirst, hkey, hk, Expr.lookupStep_eq_ok_iff.1 hstep⟩

/-! ### Indices -/

theorem digitsOf_digits (n : Nat) : digitsOf (Number.digits n) = Number.digits n :=
  List.filter_eq_self.2 fun _ ↦ Number.isDigit_of_mem_digits

/-- The digits of a number are the whole part of one. -/
theorem wholePart_digits (n : Nat) : WholePart false (Number.digits n) where
  chars c hc := by rw [isNumberChar, Number.isDigit_of_mem_digits hc, Bool.true_or]
  head _ := by
    obtain ⟨c, rest, hcons⟩ := List.exists_cons_of_ne_nil (Number.digits_ne_nil n)
    exact ⟨c, by rw [hcons]; rfl, Number.isDigit_of_mem_digits (hcons ▸ List.mem_cons_self)⟩

/-- The digits of an index spell it, if it is a signed 64-bit integer. -/
theorem spells_digits {n : Nat} (hn : n < 2 ^ 63) :
    Spells (.int (Int64.ofNat n)) (Number.digits n) := by
  refine Spells.int (wholePart_digits n) (by rw [digitsOf_digits]; exact Number.digits_ne_nil n) ?_
  rw [digitsOf_digits, Number.ofDigits_digits, Int64.toInt_ofNat_of_lt hn]
  rfl

/-- The digits of an index are read only if it is a signed 64-bit integer. -/
theorem lt_of_readNumber_digits {n : Nat} {rest left : List Char} {e : Expr}
    (h : readNumber false (Number.digits n ++ ']' :: rest) = .ok (e, left)) : n < 2 ^ 63 := by
  have hstop : ∀ c ∈ (']' :: rest).head?, isNumberChar c = false := fun c hc ↦
    Option.some.inj hc ▸ by decide
  rw [readNumber, takeWhile_append_of_stop (wholePart_digits n).chars hstop,
    dropWhile_append_of_stop (wholePart_digits n).chars hstop] at h
  dsimp only at h
  split at h
  · exact absurd (List.cons.inj ‹_›).1 (by decide)
  have hdigits : (Number.digits n).filter Char.isDigit = Number.digits n := digitsOf_digits n
  rw [hdigits] at h
  split at h
  · rename_i i hinteger
    have hvalue := (toInt_of_integer hinteger).2
    have hlt := i.toInt_lt
    rw [Number.ofDigits_digits, if_neg (by simp)] at hvalue
    omega
  · exact absurd h (by simp)

/-- **An index between brackets is looked up**, as long as it is a signed 64-bit integer. -/
theorem evaluate_index_eq_ok_iff (h : Evaluator.standard host (String.ofList base) ns = .ok v)
    {padding : List Char} (hpadding : Blank padding) {n : Nat} {found : Value} :
    Evaluator.standard host
        (String.ofList (base ++ '[' :: padding ++ Number.digits n ++ [']'])) ns = .ok found ↔
      n < 2 ^ 63 ∧ v.lookup host (.int (Int64.ofNat n)) = .ok found := by
  by_cases hn : n < 2 ^ 63
  · have hsubscript := evaluate_subscript h hpadding (spells_digits hn)
      (show 0 + 1 < maxNesting by decide) blank_nil rfl
    rw [List.append_nil] at hsubscript
    rw [hsubscript, Expr.lookupStep_eq_ok_iff, and_iff_right hn]
  · refine ⟨fun hfound ↦ ?_, fun hboth ↦ absurd hboth.1 hn⟩
    have htext : base ++ '[' :: padding ++ Number.digits n ++ [']'] =
        base ++ '[' :: (padding ++ (Number.digits n ++ [']'])) := by simp
    rw [htext] at hfound
    obtain ⟨depth, key, first, left, k, w, hread, -⟩ := exists_lookup_of_evaluate h hfound
    have htrim : trimStart (padding ++ (Number.digits n ++ [']'])) =
        signed false (Number.digits n ++ [']']) :=
      trimStart_append hpadding (opens_signed (wholePart_digits n).head) _
    rw [readPrimary_signed htrim fun hsign ↦ head_append ((wholePart_digits n).head hsign)] at hread
    exact absurd (lt_of_readNumber_digits hread) hn

/-- A quote behind a bracket is in vain when nothing closes it. -/
theorem evaluate_unclosed_ne_ok (h : Evaluator.standard host (String.ofList base) ns = .ok v)
    {quote : Char} (hquote : isQuote quote = true) {rest : List Char} (hrest : quote ∉ rest)
    (found : Value) :
    Evaluator.standard host (String.ofList (base ++ '[' :: quote :: rest)) ns ≠ .ok found := by
  intro hfound
  obtain ⟨depth, key, first, left, k, w, hread, -⟩ := exists_lookup_of_evaluate h hfound
  have htrim : trimStart (quote :: rest) = quote :: rest :=
    trimStart_append_cons blank_nil (opens_of_isQuote hquote).notBlank rest
  rw [readPrimary_string htrim hquote, readString] at hread
  split at hread
  · rename_i body after hsplit
    exact hrest (eq_append_of_splitBody? hsplit ▸ List.mem_append_right _ List.mem_cons_self)
  · exact absurd hread (by simp)

/-! ### Texts -/

/-- A text that stands for itself between quotes: it is the body of a literal, and none of its
backslashes begins an escape. -/
structure Legible (quote : Char) (key : List Char) : Prop where
  /-- Nothing in it ends the literal early, or goes on past its end. -/
  body : Body quote key
  /-- Nothing in it stands for something else. -/
  escaped : Escaped key key

/-- Without backslashes a text stands for itself. -/
theorem escaped_of_not_mem {s : List Char} (h : '\\' ∉ s) : Escaped s s := by
  induction s with
  | nil => exact .nil
  | cons c s ih =>
    obtain ⟨hc, hs⟩ := List.ne_and_not_mem_of_not_mem_cons h
    exact .plain hc.symm (ih hs)

/-- A text without quotes and backslashes is legible. -/
theorem legible_of_not_mem {quote : Char} {key : List Char} (hquote : quote ∉ key)
    (hslash : '\\' ∉ key) : Legible quote key :=
  ⟨body_of_not_mem hquote hslash, escaped_of_not_mem hslash⟩

/-- **A text between quotes is looked up** as what it stands for, if it is the body of a literal. -/
theorem evaluate_quoted_eq_ok_iff (h : Evaluator.standard host (String.ofList base) ns = .ok v)
    {padding : List Char} (hpadding : Blank padding) {quote : Char} (hquote : isQuote quote = true)
    {key : List Char} (hbody : Body quote key) {found : Value} :
    Evaluator.standard host
        (String.ofList (base ++ '[' :: padding ++ quote :: key ++ [quote, ']'])) ns = .ok found ↔
      v.lookup host (.str (String.ofList (unescape key))) = .ok found := by
  have hsubscript := evaluate_subscript h hpadding (.str hquote hbody)
    (show 0 + 1 < maxNesting by decide) blank_nil rfl
  have htext : base ++ '[' :: padding ++ quote :: key ++ [quote, ']'] =
      base ++ '[' :: padding ++ (quote :: key ++ [quote]) ++ [] ++ [']'] := by
    simp
  rw [htext, hsubscript, Expr.lookupStep_eq_ok_iff]

/-! ### Texts that are not legible -/

/-- What a text stands for is no longer than the text. -/
theorem Escaped.length_le {s t : List Char} (h : Escaped s t) : t.length ≤ s.length := by
  induction h with
  | nil | last => exact Nat.le_refl _
  | plain _ _ ih => exact Nat.succ_le_succ ih
  | escape _ _ ih => exact Nat.le_succ_of_le (Nat.succ_le_succ ih)
  | kept _ _ ih => exact Nat.succ_le_succ (Nat.succ_le_succ ih)

/-- Where a text between quotes is not the body of a literal, the literal that it begins with ends
at a quote inside the text. -/
theorem of_splitBody?_of_not_body {quote : Char} (hquote : isQuote quote = true)
    {key body after : List Char} (hkey : ¬ Body quote key)
    (h : splitBody? quote true (key ++ [quote, ']']) = some (body, after)) :
    body.length < key.length ∧ quote ∈ key := by
  have htext : key ++ [quote, ']'] = body ++ quote :: after := eq_append_of_splitBody? h
  rcases List.append_eq_append_iff.1 htext with ⟨t, rfl, ht⟩ | ⟨t, rfl, ht⟩
  · -- The literal would go on past the key, but after the quote there comes no other.
    exfalso
    rcases t with - | ⟨c, t⟩
    · exact hkey (by rw [← List.append_nil key]; exact (body_of_splitBody? h).1)
    · have hmem : quote ∈ [']'] := by
        rw [(List.cons.inj ht).2]
        exact List.mem_append_right _ List.mem_cons_self
      rw [List.mem_singleton.1 hmem] at hquote
      exact absurd hquote (by decide)
  · rcases t with - | ⟨c, t⟩
    · rw [List.append_nil] at hkey
      exact absurd (body_of_splitBody? h).1 hkey
    · obtain ⟨rfl, -⟩ := List.cons.inj ht
      refine ⟨?_, List.mem_append_right _ List.mem_cons_self⟩
      rw [List.length_append, List.length_cons]
      omega

/-- A text that is not a given key with a quote in it: it has no such quote, or is shorter. -/
def FallsShort (quote : Char) (key : List Char) (t : String) : Prop :=
  quote ∉ t.toList ∨ t.toList.length < key.length

/-- No step makes a text longer, or puts a quote in it. -/
theorem keptBySteps_fallsShort {quote : Char} (hquote : isQuote quote = true) (key : List Char)
    (host : Host) : Value.KeptBySteps host (Value.Homely (FallsShort quote key)) := by
  have hdoc : quote ∉ "The base class of the class hierarchy.".toList := by
    rcases isQuote_iff.1 hquote with rfl | rfl <;> decide
  refine Value.keptBySteps_homely (.inl hdoc) (fun t c ht hc ↦ ?_) host
  rw [FallsShort, String.toList_singleton]
  rcases ht with hfree | hlt
  · exact .inl fun hquoted ↦ hfree (List.mem_singleton.1 hquoted ▸ hc)
  · exact .inr (Nat.lt_of_le_of_lt (List.length_pos_of_mem hc) hlt)

/-- What goes on from a literal shorter than a key with its quote in it does not come to the key. -/
theorem ne_of_goesOn_literal {quote : Char} (hquote : isQuote quote = true) {key body : List Char}
    (hlength : body.length < key.length) (hmem : quote ∈ key) {e : Expr} {k : Value}
    (h : (Expr.str quote body).GoesOn e) (hk : e.eval host ns = .ok k) :
    k ≠ .str (String.ofList key) := by
  have hliteral : ∀ v, (Expr.str quote body).eval host ns = .ok v →
      v.Homely (FallsShort quote key) := by
    intro v hv
    obtain rfl := Except.ok.inj hv
    refine .inr ?_
    rw [String.toList_ofList]
    exact Nat.lt_of_le_of_lt (escaped_unescape body).length_le hlength
  rintro rfl
  have hshort : FallsShort quote key (String.ofList key) :=
    h.eval (keptBySteps_fallsShort hquote key host) hliteral hk
  rw [FallsShort, String.toList_ofList] at hshort
  exact hshort.elim (fun hfree ↦ hfree hmem) (Nat.lt_irrefl _)

/-- **A text that is not legible does not name itself.** Between quotes as it is, it is not found in
a mapping that has it for its only key. -/
theorem evaluate_quoted_ne_ok {key : List Char} {value : Value}
    (h : Evaluator.standard host (String.ofList base) ns =
      .ok (.dict [(.str (String.ofList key), value)]))
    {padding : List Char} (hpadding : Blank padding) {quote : Char} (hquote : isQuote quote = true)
    (hkey : ¬ Legible quote key) (found : Value) :
    Evaluator.standard host
      (String.ofList (base ++ '[' :: padding ++ quote :: key ++ [quote, ']'])) ns ≠ .ok found := by
  intro hfound
  by_cases hbody : Body quote key
  · -- It is read as another text.
    have hlookup := (evaluate_quoted_eq_ok_iff h hpadding hquote hbody).1 hfound
    have hother := Value.str.inj (Value.eq_of_lookup_singleton hlookup)
    have hsame : unescape key = key := by simpa using congrArg String.toList hother
    exact hkey ⟨hbody, by simpa only [hsame] using escaped_unescape key⟩
  · -- Its literal ends early.
    have htext : base ++ '[' :: padding ++ quote :: key ++ [quote, ']'] =
        base ++ '[' :: (padding ++ quote :: (key ++ [quote, ']'])) := by simp
    rw [htext] at hfound
    obtain ⟨depth, e, first, left, k, w, hread, hgoes, hk, hlookup⟩ :=
      exists_lookup_of_evaluate h hfound
    rw [readPrimary_string (trimStart_append_cons hpadding (opens_of_isQuote hquote).notBlank _)
      hquote, readString] at hread
    split at hread
    · rename_i body after hsplit
      obtain ⟨rfl, rfl⟩ := Prod.mk.inj (Except.ok.inj hread)
      obtain ⟨hlength, hmem⟩ := of_splitBody?_of_not_body hquote hbody hsplit
      exact ne_of_goesOn_literal hquote hlength hmem hgoes hk
        (Value.eq_of_lookup_singleton hlookup)
    · exact absurd hread (by simp)

end Evaluate

end LineCompletion
