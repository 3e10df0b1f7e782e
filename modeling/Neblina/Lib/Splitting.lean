import Mathlib.Data.List.Basic
import Mathlib.Data.List.Infix

/-!
# `Lib.Splitting` — leftmost occurrences and the split of a list at a separator

Over an arbitrary alphabet. `findFrom` is the search of a pattern from a start position (the lowest
position not before the start at which the pattern occurs, the end of the text included), and
`splitAll` cuts a text at its leftmost separator again and again.

The facts the clients use:
* `findFrom_append` — an occurrence found in a text is the one found after the text has grown at its end;
* `splitAll_append` — the split of a grown text is the split of the old one, followed by the split of its
  remainder with the new part;
* `splitAll_join` — the pieces with their separators, and the remainder, are the text;
* `splitAll_rest_append_sep` — for a separator without a proper border, a text that ends in a separator is
  split without remainder, so that every occurrence of the separator is a place where the split cuts.
-/

namespace Splitting

variable {α : Type} [DecidableEq α]

/-! ## Searching -/

/-- The lowest `i` with `pos ≤ i ≤ text.length` at which `pat` occurs in `text`. -/
def findFrom (pat text : List α) (pos : Nat) : Option Nat :=
  (List.range' pos (text.length + 1 - pos)).find? (fun i => decide (pat <+: text.drop i))

/-- `findFrom` finds an occurrence, and the leftmost one from `pos` on. -/
theorem findFrom_eq_some {pat text : List α} {pos i : Nat} :
    findFrom pat text pos = some i ↔
      pos ≤ i ∧ i ≤ text.length ∧ pat <+: text.drop i ∧
        ∀ j, pos ≤ j → j < i → ¬ pat <+: text.drop j := by
  unfold findFrom
  rw [List.find?_range'_eq_some]
  simp only [decide_eq_true_eq, List.mem_range'_1, Bool.not_eq_true', decide_eq_false_iff_not]
  constructor
  · rintro ⟨hp, ⟨hlo, hhi⟩, hno⟩
    exact ⟨hlo, by omega, hp, hno⟩
  · rintro ⟨hlo, hhi, hp, hno⟩
    exact ⟨hp, ⟨hlo, by omega⟩, hno⟩

theorem findFrom_eq_none {pat text : List α} {pos : Nat} :
    findFrom pat text pos = none ↔
      ∀ i, pos ≤ i → i ≤ text.length → ¬ pat <+: text.drop i := by
  unfold findFrom
  rw [List.find?_range'_eq_none]
  simp only [decide_eq_false_iff_not, Bool.not_eq_true']
  constructor
  · intro h i hlo hhi
    exact h i hlo (by omega)
  · intro h i hlo hhi
    exact h i hlo (by omega)

omit [DecidableEq α] in
/-- An occurrence lies inside the text. -/
theorem length_of_prefix_drop {pat text : List α} {i : Nat} (hi : i ≤ text.length)
    (h : pat <+: text.drop i) : i + pat.length ≤ text.length := by
  have hlen := h.length_le
  rw [List.length_drop] at hlen
  omega

theorem findFrom_bound {pat text : List α} {pos i : Nat} (h : findFrom pat text pos = some i) :
    i + pat.length ≤ text.length := by
  obtain ⟨_, hi, hp, _⟩ := findFrom_eq_some.mp h
  exact length_of_prefix_drop hi hp

/-- Starting later changes nothing as long as the start is not past the occurrence. -/
theorem findFrom_of_le {pat text : List α} {p q i : Nat} (h : findFrom pat text p = some i)
    (hpq : p ≤ q) (hqi : q ≤ i) : findFrom pat text q = some i := by
  obtain ⟨_, hi, hp, hno⟩ := findFrom_eq_some.mp h
  exact findFrom_eq_some.mpr ⟨hqi, hi, hp, fun j hj hji => hno j (by omega) hji⟩

/-- Growing the text at its end keeps every occurrence that was there. -/
theorem findFrom_append {pat text : List α} {pos i : Nat} (h : findFrom pat text pos = some i)
    (more : List α) : findFrom pat (text ++ more) pos = some i := by
  have hbound := findFrom_bound h
  obtain ⟨hlo, hi, hp, hno⟩ := findFrom_eq_some.mp h
  refine findFrom_eq_some.mpr ⟨hlo, by rw [List.length_append]; omega, ?_, ?_⟩
  · rw [List.drop_append_of_le_length hi]
    exact hp.trans (List.prefix_append _ _)
  · -- an earlier occurrence in the longer text would already fit into the old one
    intro j hj hji hpj
    rw [List.drop_append_of_le_length (by omega)] at hpj
    have hfit : pat.length ≤ (text.drop j).length := by
      rw [List.length_drop]
      omega
    exact hno j hj hji (List.prefix_of_prefix_length_le hpj (List.prefix_append _ _) hfit)

/-! ## The split at the leftmost separators -/

/-- `splitAll` with a bound on the number of cuts. -/
def splitUpTo (sep : List α) : Nat → List α → List (List α) × List α
  | 0, text => ([], text)
  | n + 1, text =>
      match findFrom sep text 0 with
      | none => ([], text)
      | some i =>
          let tail := splitUpTo sep n (text.drop (i + sep.length))
          (text.take i :: tail.1, tail.2)

/-- The pieces of `text` before its leftmost separators, cut one after the other, and what remains. -/
def splitAll (sep text : List α) : List (List α) × List α := splitUpTo sep text.length text

/-- More cuts than the text has letters are never made, so the bound does not matter. -/
theorem splitUpTo_eq {sep : List α} (hsep : sep ≠ []) :
    ∀ (n m : Nat) (text : List α), text.length ≤ n → text.length ≤ m →
      splitUpTo sep n text = splitUpTo sep m text := by
  have hpos : 0 < sep.length := List.length_pos_iff.mpr hsep
  have hempty : ∀ text : List α, text.length = 0 → findFrom sep text 0 = none := by
    intro text h0
    cases hf : findFrom sep text 0 with
    | none => rfl
    | some i =>
        have := findFrom_bound hf
        omega
  intro n
  induction n with
  | zero =>
      intro m text hn _
      have hf := hempty text (by omega)
      cases m with
      | zero => rfl
      | succ m => simp only [splitUpTo, hf]
  | succ n ih =>
      intro m text hn hm
      cases m with
      | zero =>
          have hf := hempty text (by omega)
          simp only [splitUpTo, hf]
      | succ m =>
          cases hf : findFrom sep text 0 with
          | none => simp only [splitUpTo, hf]
          | some i =>
              have hb := findFrom_bound hf
              have htail : (text.drop (i + sep.length)).length ≤ n ∧
                  (text.drop (i + sep.length)).length ≤ m := by
                rw [List.length_drop]
                omega
              simp only [splitUpTo, hf, ih m _ htail.1 htail.2]

theorem splitAll_of_none {sep text : List α} (h : findFrom sep text 0 = none) :
    splitAll sep text = ([], text) := by
  unfold splitAll
  cases text with
  | nil => rfl
  | cons a t => simp only [List.length_cons, splitUpTo, h]

theorem splitAll_of_some {sep text : List α} (hsep : sep ≠ []) {i : Nat}
    (h : findFrom sep text 0 = some i) :
    splitAll sep text =
      (text.take i :: (splitAll sep (text.drop (i + sep.length))).1,
        (splitAll sep (text.drop (i + sep.length))).2) := by
  have hpos : 0 < sep.length := List.length_pos_iff.mpr hsep
  have hb := findFrom_bound h
  obtain ⟨k, hk⟩ : ∃ k, text.length = k + 1 := ⟨text.length - 1, by omega⟩
  have hle : (text.drop (i + sep.length)).length ≤ k := by
    rw [List.length_drop]
    omega
  unfold splitAll
  rw [hk]
  simp only [splitUpTo, h]
  rw [splitUpTo_eq hsep k _ _ hle (Nat.le_refl _)]

/-- The remainder of a split holds no separator. -/
theorem findFrom_splitAll_rest {sep : List α} (hsep : sep ≠ []) (text : List α) :
    findFrom sep (splitAll sep text).2 0 = none := by
  induction hn : text.length using Nat.strongRecOn generalizing text with
  | ind n ih =>
      cases hf : findFrom sep text 0 with
      | none =>
          rw [splitAll_of_none hf]
          exact hf
      | some i =>
          have hb := findFrom_bound hf
          have hpos : 0 < sep.length := List.length_pos_iff.mpr hsep
          rw [splitAll_of_some hsep hf]
          exact ih _ (by rw [List.length_drop]; omega) _ rfl

/-- **The split of a grown text.** The cuts of the old text stay, the rest is cut with the new part. -/
theorem splitAll_append {sep : List α} (hsep : sep ≠ []) (text more : List α) :
    splitAll sep (text ++ more) =
      ((splitAll sep text).1 ++ (splitAll sep ((splitAll sep text).2 ++ more)).1,
        (splitAll sep ((splitAll sep text).2 ++ more)).2) := by
  induction hn : text.length using Nat.strongRecOn generalizing text with
  | ind n ih =>
      cases hf : findFrom sep text 0 with
      | none => simp [splitAll_of_none hf]
      | some i =>
          have hb := findFrom_bound hf
          have hpos : 0 < sep.length := List.length_pos_iff.mpr hsep
          have hlt : (text.drop (i + sep.length)).length < n := by
            rw [List.length_drop]
            omega
          rw [splitAll_of_some hsep hf, splitAll_of_some hsep (findFrom_append hf more),
            List.drop_append_of_le_length hb, List.take_append_of_le_length (by omega),
            ih _ hlt _ rfl]
          rfl

/-! ## Putting the pieces together again -/

/-- The pieces with the separator that followed each of them. -/
def join (sep : List α) (pieces : List (List α)) : List α := (pieces.map (· ++ sep)).flatten

omit [DecidableEq α] in
@[simp] theorem join_nil (sep : List α) : join sep [] = [] := rfl

omit [DecidableEq α] in
@[simp] theorem join_cons (sep p : List α) (ps : List (List α)) :
    join sep (p :: ps) = p ++ sep ++ join sep ps := rfl

omit [DecidableEq α] in
/-- A text cut at an occurrence of the separator. -/
theorem take_sep_drop {sep text : List α} {i : Nat} (h : sep <+: text.drop i) :
    text.take i ++ sep ++ text.drop (i + sep.length) = text := by
  obtain ⟨t, ht⟩ := h
  have hdrop : text.drop (i + sep.length) = t := by
    rw [← List.drop_drop, ← ht, List.drop_left]
  rw [hdrop, List.append_assoc, ht, List.take_append_drop]

/-- **The split loses nothing.** -/
theorem splitAll_join {sep : List α} (hsep : sep ≠ []) (text : List α) :
    join sep (splitAll sep text).1 ++ (splitAll sep text).2 = text := by
  induction hn : text.length using Nat.strongRecOn generalizing text with
  | ind n ih =>
      cases hf : findFrom sep text 0 with
      | none =>
          rw [splitAll_of_none hf]
          rfl
      | some i =>
          have hb := findFrom_bound hf
          have hpos : 0 < sep.length := List.length_pos_iff.mpr hsep
          obtain ⟨_, _, hp, _⟩ := findFrom_eq_some.mp hf
          have hrest := ih _ (by rw [List.length_drop]; omega) (text.drop (i + sep.length)) rfl
          rw [splitAll_of_some hsep hf, join_cons, List.append_assoc, hrest]
          exact take_sep_drop hp

/-! ## Separators without a proper border -/

/-- No proper non-empty prefix of `sep` is also a suffix of it: two occurrences never overlap. -/
def BorderFree (sep : List α) : Prop := ∀ p, p <+: sep → p <:+ sep → p = [] ∨ p = sep

instance (sep : List α) : Decidable (BorderFree sep) :=
  decidable_of_iff (∀ p ∈ sep.inits, p <:+ sep → p = [] ∨ p = sep) (by
    simp only [List.mem_inits, BorderFree])

omit [DecidableEq α] in
/-- An occurrence of a border-free separator that starts inside `u` ends inside `u` as well, when the text
    goes on with another separator behind `u`. -/
theorem BorderFree.no_overlap {sep u : List α} (hb : BorderFree sep) {i : Nat} (hi : i < u.length)
    (h : sep <+: (u ++ sep).drop i) : i + sep.length ≤ u.length := by
  by_contra hlt
  rw [List.drop_append_of_le_length (Nat.le_of_lt hi)] at h
  -- the part of the occurrence behind `u` is a prefix of `sep`, and a suffix of it
  have hshort : u.drop i <+: sep := by
    apply List.prefix_of_prefix_length_le (List.prefix_append _ _) h
    rw [List.length_drop]
    omega
  obtain ⟨p, hp⟩ := hshort
  have hprefix : p <+: sep := by
    rw [← hp] at h
    exact (List.prefix_append_right_inj _).mp (by rwa [hp] at h ⊢)
  have hlen := congrArg List.length hp
  rw [List.length_append, List.length_drop] at hlen
  rcases hb p hprefix ⟨u.drop i, hp⟩ with rfl | rfl
  · simp only [List.length_nil] at hlen
    omega
  · omega

/-- **A text that ends in a border-free separator is split without remainder.** -/
theorem splitAll_rest_append_sep {sep : List α} (hsep : sep ≠ []) (hb : BorderFree sep) (u : List α) :
    (splitAll sep (u ++ sep)).2 = [] := by
  induction hn : u.length using Nat.strongRecOn generalizing u with
  | ind n ih =>
      have hpos : 0 < sep.length := List.length_pos_iff.mpr hsep
      cases hf : findFrom sep (u ++ sep) 0 with
      | none =>
          have hno := findFrom_eq_none.mp hf u.length (Nat.zero_le _) (by rw [List.length_append]; omega)
          rw [List.drop_left] at hno
          exact absurd (List.prefix_refl sep) hno
      | some i =>
          have hbound := findFrom_bound hf
          obtain ⟨_, _, hp, _⟩ := findFrom_eq_some.mp hf
          rw [List.length_append] at hbound
          rw [splitAll_of_some hsep hf]
          by_cases hi : i < u.length
          · -- the leftmost separator lies inside `u`; go on behind it
            have hin := hb.no_overlap hi hp
            rw [List.drop_append_of_le_length hin]
            exact ih _ (by rw [List.length_drop]; omega) _ rfl
          · have hnil : (u ++ sep).drop (i + sep.length) = [] := by
              rw [List.drop_eq_nil_iff, List.length_append]
              omega
            rw [hnil]
            rfl

/-- The split of a text behind an occurrence of a border-free separator, however that was found. -/
theorem splitAll_append_sep {sep : List α} (hsep : sep ≠ []) (hb : BorderFree sep) (u more : List α) :
    splitAll sep (u ++ sep ++ more) =
      ((splitAll sep (u ++ sep)).1 ++ (splitAll sep more).1, (splitAll sep more).2) := by
  rw [splitAll_append hsep, splitAll_rest_append_sep hsep hb, List.nil_append]

end Splitting
