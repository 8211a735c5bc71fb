import ListingQuery.Proofs.Filter.SpacedOperator

/-!
# The first operator of a text

The search for the operator of a condition walks over the text character by character.  A place is
outside if the quotes and lists of the text before it are closed.  The search stops at the first place
outside where an operator is spelled, and takes the longest spelling there, since in the table every
spelling stands before its beginnings.

* `Spelling.at?_eq_some_iff` says that what is found at a place is the longest spelling there;
* `Comparison.cut_of_stop` and `Comparison.cut_of_pass` are the step of the search;
* `Comparison.cut_append_of_nothingSpelled`, `Comparison.exists_of_cut` and
  `Comparison.cut_eq_none_iff_places` are the whole of it, from any place on;
* `Comparison.read_of_cut` reads a condition that was cut in three;
* `Comparison.first_operator_splits` is the search of a text, and what it means for a condition of one
  word.
-/

namespace ListingQuery

/-! ## The longest spelling -/

namespace Spelling

/-- No operator begins here exactly if none of the spellings does. -/
theorem at?_eq_none_iff {cs : List Char} : at? cs = none ↔ ∀ t ∈ all, ¬ t.chars <+: cs := by
  simp [at?, List.isPrefixOf_iff_prefix]

/-- No spelling stands in the table behind one of its beginnings. -/
theorem pairwise_not_prefix : all.Pairwise fun s t => ¬ s.chars <+: t.chars := by
  decide

/-- **What is found at a place is the longest spelling there.** -/
theorem at?_eq_some_iff {cs : List Char} {s : Spelling} :
    at? cs = some s ↔
      s ∈ all ∧ s.chars <+: cs ∧ ∀ t ∈ all, t.chars <+: cs → t.chars.length ≤ s.chars.length := by
  constructor
  · intro hat
    have hprefix := prefix_of_at? hat
    refine ⟨mem_all_of_at? hat, hprefix, fun t ht hother => Nat.le_of_not_lt fun hlonger => ?_⟩
    have hbegins : s.chars <+: t.chars :=
      List.prefix_of_prefix_length_le hprefix hother (Nat.le_of_lt hlonger)
    obtain ⟨-, front, back, htable, hpassed⟩ := List.find?_eq_some_iff_append.mp hat
    have hsorted := pairwise_not_prefix
    rw [htable, List.pairwise_append, List.pairwise_cons] at hsorted
    rw [htable, List.mem_append, List.mem_cons] at ht
    -- a longer spelling stands before this one, where the table was passed without finding it
    rcases ht with hfront | rfl | hback
    · have hnot := hpassed t hfront
      rw [List.isPrefixOf_iff_prefix.mpr hother] at hnot
      cases hnot
    · exact Nat.lt_irrefl _ hlonger
    · exact hsorted.2.1.1 t hback hbegins
  · rintro ⟨hs, ⟨rest, rfl⟩, hlongest⟩
    exact at?_of_longest hs hlongest

end Spelling

/-! ## The search -/

/-- The place behind so many characters of a text is outside: the quotes and lists before it are
closed. -/
def Region.OutsideAt (cs : List Char) (i : Nat) : Prop :=
  Region.after .outside [] (cs.take i) = .outside

namespace Comparison

/-- **The search stops** at an operator that is spelled outside. -/
theorem cut_of_stop {before rest : List Char} {c : Char} {s : Spelling}
    (hat : Spelling.at? (c :: rest) = some s) :
    cutAtOperator? .outside before (c :: rest) =
      some (before.reverse, s, (c :: rest).drop s.chars.length) := by
  by_cases hstart : c ∈ Spelling.starts
  · exact cut_of_at?_some (Region.isOpen_of_mem_starts hstart before) hat
  · rw [Spelling.at?_of_not_mem_starts hstart] at hat
    cases hat

/-- **The search goes on** where a quote or a list is open, and where nothing is spelled. -/
theorem cut_of_pass {r : Region} {before rest : List Char} {c : Char}
    (hpass : r = .outside → Spelling.at? (c :: rest) = none) :
    cutAtOperator? r before (c :: rest) = cutAtOperator? (r.next before c) (c :: before) rest := by
  cases hopen : r.isOpen before c with
  | false => exact cut_of_not_isOpen hopen
  | true => exact cut_of_at?_none hopen (hpass (Region.next_of_isOpen hopen).1)

/-- At every character the search stops or goes on. -/
theorem stop_or_pass (r : Region) (cs : List Char) :
    (r = .outside ∧ ∃ s, Spelling.at? cs = some s) ∨ (r = .outside → Spelling.at? cs = none) := by
  cases hat : Spelling.at? cs with
  | none => exact Or.inr fun _ => rfl
  | some s =>
      by_cases houtside : r = .outside
      · exact Or.inl ⟨houtside, s, rfl⟩
      · exact Or.inr fun h => absurd h houtside

/-- Nothing is found exactly if nothing is spelled outside. -/
theorem cut_eq_none_iff_places {r : Region} {before cs : List Char} :
    cutAtOperator? r before cs = none ↔
      ∀ i, r.after before (cs.take i) = .outside → Spelling.at? (cs.drop i) = none := by
  induction cs generalizing r before with
  | nil =>
      have hnone : Spelling.at? [] = none := rfl
      simp [cutAtOperator?, hnone]
  | cons c rest ih =>
      rcases stop_or_pass r (c :: rest) with ⟨rfl, s, hat⟩ | hpass
      · rw [cut_of_stop hat]
        refine iff_of_false (Option.some_ne_none _) fun hall => ?_
        exact Option.some_ne_none s (hat.symm.trans (hall 0 rfl))
      · rw [cut_of_pass hpass, ih]
        constructor
        · intro hrest i houtside
          cases i with
          | zero => exact hpass houtside
          | succ i => exact hrest i houtside
        · exact fun hall i houtside => hall (i + 1) houtside

/-- Nothing is spelled outside at the first places of a text, so many as `front` has characters. -/
def NothingSpelled (r : Region) (before front cs : List Char) : Prop :=
  ∀ i < front.length, r.after before (cs.take i) = .outside → Spelling.at? (cs.drop i) = none

/-- The search passes over a text in which nothing is spelled outside. -/
theorem cut_append_of_nothingSpelled {r : Region} {before front rest : List Char}
    (h : NothingSpelled r before front (front ++ rest)) :
    cutAtOperator? r before (front ++ rest) =
      cutAtOperator? (r.after before front) (front.reverse ++ before) rest := by
  induction front generalizing r before with
  | nil => rfl
  | cons c front ih =>
      have hhead : r = .outside → Spelling.at? (c :: (front ++ rest)) = none :=
        h 0 (Nat.succ_pos _)
      have htail : NothingSpelled (r.next before c) (c :: before) front (front ++ rest) :=
        fun i hi => h (i + 1) (Nat.succ_lt_succ hi)
      rw [List.cons_append, cut_of_pass hhead, ih htail]
      simp [Region.after]

/-- What is found is spelled outside, and nothing is spelled outside before it. -/
theorem exists_of_cut {r : Region} {before cs x y : List Char} {s : Spelling}
    (hcut : cutAtOperator? r before cs = some (x, s, y)) :
    ∃ front, x = before.reverse ++ front ∧ cs = front ++ (s.chars ++ y) ∧
      r.after before front = .outside ∧ Spelling.at? (s.chars ++ y) = some s ∧
      NothingSpelled r before front cs := by
  induction cs generalizing r before with
  | nil => cases hcut
  | cons c rest ih =>
      rcases stop_or_pass r (c :: rest) with ⟨rfl, t, hat⟩ | hpass
      · obtain ⟨behind, hbehind⟩ := Spelling.prefix_of_at? hat
        rw [cut_of_stop hat, ← hbehind, List.drop_left] at hcut
        cases hcut
        exact ⟨[], (List.append_nil _).symm, hbehind.symm, rfl, hbehind ▸ hat, nofun⟩
      · rw [cut_of_pass hpass] at hcut
        obtain ⟨front, hx, hrest, houtside, hs, hnothing⟩ := ih hcut
        refine ⟨c :: front, by simpa using hx, by rw [hrest]; rfl, houtside, hs, fun i hi h => ?_⟩
        cases i with
        | zero => exact hpass h
        | succ i => exact hnothing i (Nat.lt_of_succ_lt_succ hi) h

/-! ## The search of a text -/

/-- A text is cut in three at a spelling: it stands outside, no operator is spelled outside before it,
and none that is longer is spelled in its place. -/
structure CutAtFirst (cs before : List Char) (s : Spelling) (behind : List Char) : Prop where
  listed : s ∈ Spelling.all
  text : cs = before ++ (s.chars ++ behind)
  outside : Region.OutsideAt cs before.length
  leftmost : ∀ i < before.length, Region.OutsideAt cs i → ∀ t ∈ Spelling.all, ¬ t.chars <+: cs.drop i
  longest : ∀ t ∈ Spelling.all, t.chars <+: cs.drop before.length → t.chars.length ≤ s.chars.length

/-- **A text is cut at the first operator outside of quotes and lists.** -/
theorem operatorIn?_eq_some_iff {cs before behind : List Char} {s : Spelling} :
    operatorIn? cs = some (before, s, behind) ↔ CutAtFirst cs before s behind := by
  constructor
  · intro hcut
    obtain ⟨front, hbefore, htext, houtside, hat, hnothing⟩ := exists_of_cut hcut
    rw [List.reverse_nil, List.nil_append] at hbefore
    subst hbefore
    obtain ⟨hs, -, hlongest⟩ := Spelling.at?_eq_some_iff.mp hat
    refine ⟨hs, htext, ?_, fun i hi h => Spelling.at?_eq_none_iff.mp (hnothing i hi h), ?_⟩
    · rwa [Region.OutsideAt, htext, List.take_left]
    · rwa [htext, List.drop_left]
  · rintro ⟨hs, rfl, houtside, hleftmost, hlongest⟩
    rw [Region.OutsideAt, List.take_left] at houtside
    rw [List.drop_left] at hlongest
    have hat := Spelling.at?_eq_some_iff.mpr ⟨hs, List.prefix_append _ _, hlongest⟩
    have hnothing : NothingSpelled .outside [] before (before ++ (s.chars ++ behind)) :=
      fun i hi h => Spelling.at?_eq_none_iff.mpr (hleftmost i hi h)
    rw [operatorIn?, cut_append_of_nothingSpelled hnothing, houtside, cut_at hat]
    simp

/-- There is no operator to cut at exactly if none begins at a place outside. -/
theorem operatorIn?_eq_none_iff_places {cs : List Char} :
    operatorIn? cs = none ↔
      ∀ i, Region.OutsideAt cs i → ∀ t ∈ Spelling.all, ¬ t.chars <+: cs.drop i := by
  rw [operatorIn?, cut_eq_none_iff_places]
  simp only [Spelling.at?_eq_none_iff]
  rfl

/-! ## Conditions of one word -/

/-- The comparison of a field with an operand as it is written, or the error of an operand that the
field or the operator does not take. -/
def ofOperand (field : Field) (op : Operator) (text : List Char) : Except QueryError Comparison :=
  match operandValue? field op (unquote text).1 (unquote text).2 with
  | some operand => .ok ⟨field, op, String.ofList (unquote text).1, operand⟩
  | none => .error (.sieving field.name op.token (String.ofList (unquote text).1))

/-- A condition of one word is read from its three parts. -/
theorem read_of_cut {cs before behind : List Char} {s : Spelling} {field : Field} {op : Operator}
    (hcut : operatorIn? cs = some (before, s, behind)) (hop : s.operator = some op)
    (hfield : Field.ofName? (Text.trim before) = some field) :
    Comparison.read cs 1 = ofOperand field op (Text.trim behind) := by
  rcases hquotes : unquote (Text.trim behind) with ⟨raw, quoted⟩
  cases hvalue : operandValue? field op raw quoted <;>
    simp only [Comparison.read, ofOperand, hcut, hop, hfield, hquotes, hvalue, Nat.lt_irrefl,
      false_and, if_false]

/-- **The search takes the leftmost operator outside, and the longest one there.**  It finds an
operator exactly where the text is cut at the first, and none exactly if no place outside spells any.
So a condition of one word, which is the name of a field, an operator and any text, is split into this
field, this operator and the text without the blanks around it, provided that the operator is the
longest one that begins there. -/
theorem first_operator_splits :
    (∀ (cs before behind : List Char) (s : Spelling),
      operatorIn? cs = some (before, s, behind) ↔ CutAtFirst cs before s behind) ∧
    (∀ cs : List Char, operatorIn? cs = none ↔
      ∀ i, Region.OutsideAt cs i → ∀ t ∈ Spelling.all, ¬ t.chars <+: cs.drop i) ∧
    ∀ (f : Field) (op : Operator), ∀ s ∈ Spelling.all, s.operator = some op → ∀ v : List Char,
      (∀ t ∈ Spelling.all, t.chars <+: s.chars ++ v → t.chars.length ≤ s.chars.length) →
      Comparison.read (f.name.toList ++ s.chars ++ v) 1 = ofOperand f op (Text.trim v) := by
  refine ⟨fun _ _ _ _ => operatorIn?_eq_some_iff, fun _ => operatorIn?_eq_none_iff_places,
    fun f op s hs hop v hlongest => ?_⟩
  have hname := f.ofName?_trim_name Text.blanks_nil
  rw [List.append_nil] at hname
  exact read_of_cut (operatorIn?_tight hs hlongest) hop hname

/-- A spelling between quotes is passed over and one in a list is not found, and behind a name the
longer of two spellings is taken. -/
theorem first_operator_behind_quotes :
    CutAtFirst "'a<b' >= 3".toList "'a<b' ".toList ⟨['>', '='], some .ge⟩ " 3".toList ∧
      (∀ i, Region.OutsideAt "[a<b]".toList i →
        ∀ t ∈ Spelling.all, ¬ t.chars <+: "[a<b]".toList.drop i) ∧
      Comparison.read "zimmer>= 3".toList 1 = .ok ⟨.zimmer, .ge, "3", .int 3⟩ := by
  obtain ⟨hfound, hnone, hsplit⟩ := first_operator_splits
  refine ⟨(hfound _ _ _ _).mp (by decide), (hnone _).mp (by decide), ?_⟩
  exact hsplit .zimmer .ge ⟨['>', '='], some .ge⟩ (by decide) rfl " 3".toList (by decide)

end Comparison

end ListingQuery
