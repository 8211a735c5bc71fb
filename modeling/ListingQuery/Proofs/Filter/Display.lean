import ListingQuery.Proofs.Filter.QuotedOperand
import ListingQuery.Proofs.Filter.SingleCondition
import ListingQuery.Proofs.Filter.Tree

/-!
# The displayed text of a filter

A filter is displayed with parentheses around every conjunction and disjunction and with its
connectives as words in capitals, which is one of the ways in which it can be written.

* `text_node` and `joinedText_cons` take the text of a filter apart at its connectives;
* `writes_text` says that the displayed text is a written one, whatever is known of the texts of
  the conditions;
* `Comparison.head` and `Comparison.shown` are the two parts of the text of a condition, and
  `Comparison.read_head_iff` is what the first part, with anything behind it, is read as.
-/

namespace ListingQuery

namespace Filter

/-! ## Texts -/

/-- The text that is displayed for a connective. -/
def Connective.sign : Connective → List Char
  | conjunction => [' ', 'A', 'N', 'D', ' ']
  | disjunction => [' ', 'O', 'R', ' ']

theorem Connective.written_sign (k : Connective) : k.Written k.sign := by
  cases k with
  | conjunction =>
      exact .word (w := ['A', 'N', 'D']) (by decide) Text.blanks_space (by simp)
        Text.blanks_space (by simp)
  | disjunction =>
      exact .word (w := ['O', 'R']) (by decide) Text.blanks_space (by simp)
        Text.blanks_space (by simp)

/-- The text of a node is its operands between parentheses, with its sign between them. -/
theorem text_node (k : Connective) (fs : List Filter) :
    (k.node fs).text = '(' :: (joinedText k.sign fs ++ [')']) := by
  cases k <;> rfl

/-- Joined texts are the first one and the others behind their signs. -/
theorem joinedText_cons (sign : List Char) (f : Filter) (fs : List Filter) :
    joinedText sign (f :: fs) = f.text ++ fs.flatMap fun g => sign ++ g.text := by
  induction fs generalizing f with
  | nil => simp [joinedText]
  | cons g fs ih => simp [joinedText, ih]

/-! ## The displayed text is a written one -/

/-- **A displayed filter is written** with its conditions as they are displayed. -/
theorem writes_text {leaf : Comparison → List Char → Prop} {f : Filter} (hf : f.Branching)
    (hleaves : ∀ c ∈ f.leaves, leaf c c.text) : Writes leaf f f.text := by
  induction f using Filter.induction with
  | always => exact hf.elim
  | test c => exact .test (hleaves c List.mem_cons_self)
  | not f ih =>
      exact .not (w := ['N', 'O', 'T']) (by decide) Text.blanks_space (Or.inl (by simp))
        (ih hf hleaves)
  | node k fs ih =>
      obtain ⟨hlength, hbranching⟩ := branching_node.mp hf
      match fs, hlength with
      | first :: second :: rest, _ =>
          have hwrites : ∀ g ∈ first :: second :: rest, Writes leaf g g.text := fun g hg =>
            ih g hg (hbranching g hg) fun c hc => hleaves c (mem_leaves_node hg hc)
          have hsigns : ∀ o ∈ (second :: rest).map fun g => Clause.mk k.sign g g.text,
              k.Written o.sign := by
            intro o ho
            obtain ⟨g, _, rfl⟩ := List.mem_map.mp ho
            exact k.written_sign
          have hothers : ∀ o ∈ (second :: rest).map fun g => Clause.mk k.sign g g.text,
              Writes leaf o.filter o.text := by
            intro o ho
            obtain ⟨g, hg, rfl⟩ := List.mem_map.mp ho
            exact hwrites g (List.mem_cons_of_mem _ hg)
          have hall := Writes.joined k (hwrites first List.mem_cons_self) (by simp) hsigns hothers
          rw [text_node, joinedText_cons]
          simpa [List.map_map, List.flatMap_map, Function.comp_def] using hall

end Filter

/-! ## Conditions -/

/-- The displayed spelling of an operator is one of its spellings. -/
theorem Operator.exists_spelling (op : Operator) :
    ∃ s ∈ Spelling.all, s.chars = op.token.toList ∧ s.operator = some op := by
  have hany : Spelling.all.any (fun s => s.chars == op.token.toList && s.operator == some op) =
      true := by
    cases op <;> decide
  obtain ⟨s, hs, hsame⟩ := List.any_eq_true.mp hany
  rw [Bool.and_eq_true, beq_iff_eq, beq_iff_eq] at hsame
  exact ⟨s, hs, hsame⟩

namespace Comparison

open ListingQuery.Filter ListingQuery.Filter.Token

/-- The field and the operator of a condition as they are displayed. -/
def head (c : Comparison) : List Char :=
  c.field.name.toList ++ ' ' :: c.op.token.toList

/-- The operand of a condition as it is displayed. -/
def shown (c : Comparison) : List Char :=
  if c.raw.toList.any Text.isBlank then inQuotes c.raw.toList else c.raw.toList

/-- The text of a comparison is its field and operator, and then its operand as it is shown. -/
theorem text_eq (c : Comparison) : c.text = c.head ++ ' ' :: c.shown := by
  simp [text, head, shown, inQuotes]

/-- The field and the operator are two words. -/
theorem scans_head (c : Comparison) :
    Scans c.head [fragment c.field.name.toList 1, fragment c.op.token.toList 1] := by
  obtain ⟨s, hs, hchars, _⟩ := c.op.exists_spelling
  have htoken : Scans c.op.token.toList [fragment c.op.token.toList 1] :=
    hchars ▸ scans_spelling hs
  exact c.field.scans_name.append_gap htoken Text.blanks_space (by simp)

/-- In a displayed condition the operator is found where it was written. -/
theorem operatorIn?_head (c : Comparison) {behind : List Char}
    (hbehind : ∀ d, behind.head? = some d → d ∉ Spelling.starts) :
    ∃ s, s.operator = some c.op ∧
      operatorIn? (c.head ++ behind) = some (c.field.name.toList ++ [' '], s, behind) := by
  obtain ⟨s, hs, hchars, hop⟩ := c.op.exists_spelling
  have hat : Spelling.at? (s.chars ++ behind) = some s := by
    cases behind with
    | nil => rw [List.append_nil, Spelling.at?_chars s hs]
    | cons d behind => exact Spelling.at?_chars_append hs (hbehind d rfl) behind
  have htext : c.head ++ behind = (c.field.name.toList ++ [' ']) ++ (s.chars ++ behind) := by
    simp [head, hchars]
  refine ⟨s, hop, ?_⟩
  rw [htext]
  exact operatorIn?_behind_name c.field Text.blanks_space hat

/-- **What stands behind a displayed field and operator** is the operand, and everything else about
the condition is settled. -/
theorem read_head_iff (c : Comparison) {behind : List Char} {words : Nat} {d : Comparison}
    (hbehind : ∀ d, behind.head? = some d → d ∉ Spelling.starts) :
    Comparison.read (c.head ++ behind) words = .ok d ↔
      d.field = c.field ∧ d.op = c.op ∧
        ¬ (1 < words ∧ (operatorIn? (Text.trim behind)).isSome = true) ∧
        d.Takes (Text.trim behind) := by
  obtain ⟨s, hop, hcut⟩ := c.operatorIn?_head hbehind
  have hname := c.field.ofName?_trim_name Text.blanks_space
  rw [read_eq_ok_iff]
  constructor
  · rintro ⟨before', s', behind', hcut', hop', hfield', hmissing, htakes⟩
    rw [hcut] at hcut'
    cases hcut'
    rw [hname, Option.some.injEq] at hfield'
    rw [hop, Option.some.injEq] at hop'
    exact ⟨hfield'.symm, hop'.symm, hmissing, htakes⟩
  · rintro ⟨hfield, hdop, hmissing, htakes⟩
    exact ⟨_, s, behind, hcut, by rw [hop, hdop], by rw [hname, hfield],
      hmissing, htakes⟩

end Comparison

end ListingQuery
