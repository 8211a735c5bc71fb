import ListingQuery.Proofs.Filter.Joining
import ListingQuery.Proofs.Filter.Spelling
import ListingQuery.Proofs.Filter.Words

/-!
# Filters as they are written

A filter is written with parentheses around every conjunction and disjunction; a connective is a
symbol or a word in letters of any case, and blanks may stand between all parts.

* `Writes` are the texts of a filter in this form, for any way to write its conditions;
* `Writes.lexes` says that such a text has the tokens of the filter, if every condition is read as
  one token wherever it stands;
* `Writes.read` is the reading of the whole text under limits, and `Writes.read_joined` that of
  operands without parentheses around them all.
-/

namespace ListingQuery.Filter

open Token

/-! ## Signs -/

/-- A connective as it is written between two operands: its symbol, or its word with blanks around
it. -/
inductive Connective.Written (k : Connective) : List Char → Prop
  | symbol : Written k k.symbol
  | word {w front back : List Char} (hw : Text.sameLetters w k.word = true)
      (hfront : Text.Blanks front) (hfrontNe : front ≠ []) (hback : Text.Blanks back)
      (hbackNe : back ≠ []) : Written k (front ++ (w ++ back))

/-- However it is written, a connective is read as its token. -/
theorem Connective.Written.signs {k : Connective} {sign : List Char} (h : k.Written sign) :
    Signs k sign := by
  cases h with
  | symbol => exact ⟨endsWord_symbol k, fun rest out => by rw [scan_symbol, flush_nil]⟩
  | @word w front back hw hfront hfrontNe hback hbackNe =>
      have hletters := isLetter_of_sameLetters (by cases k <;> decide) hw
      have hne := ne_nil_of_sameLetters (by cases k <;> simp [Connective.word]) hw
      constructor
      · intro rest
        rw [List.append_assoc]
        exact endsWord_gap hfront hfrontNe _
      · intro rest out
        rw [List.append_assoc, scan_blanks hfront, List.append_assoc,
          scans_letters hletters hne _ _ (endsWord_gap hback hbackNe rest), ofWord_connective hw,
          List.reverse_singleton, List.singleton_append, scan_blanks hback]

/-- The first character of a text does not make an operator of an exclamation mark before it. -/
def StartsPlainly (cs : List Char) : Prop :=
  ∃ c rest, cs = c :: rest ∧ c ∉ ['=', '%', '~']

/-- A text that begins with a letter starts plainly. -/
theorem startsPlainly_of_isLetter {c : Char} (hc : IsLetter c) (cs : List Char) :
    StartsPlainly (c :: cs) := by
  refine ⟨c, cs, rfl, fun hmem => (silent_of_isLetter hc).2.2 ?_⟩
  have hstarts : ['=', '%', '~'] ⊆ Spelling.starts := by simp [Spelling.starts]
  exact hstarts hmem

/-- A text starts plainly whatever is behind it. -/
theorem StartsPlainly.append {cs : List Char} (h : StartsPlainly cs) (ds : List Char) :
    StartsPlainly (cs ++ ds) := by
  obtain ⟨c, rest, rfl, hc⟩ := h
  exact ⟨c, rest ++ ds, rfl, hc⟩

/-- A text that starts plainly begins with no operator. -/
theorem StartsPlainly.beginsOperator {cs : List Char} (h : StartsPlainly cs) :
    beginsOperator cs = false := by
  obtain ⟨c, rest, rfl, hc⟩ := h
  simpa [Token.beginsOperator, and_assoc] using hc

/-! ## Texts of filters -/

/-- A further operand: the sign of the connective before it, the operand and its text. -/
structure Clause where
  sign : List Char
  filter : Filter
  text : List Char

/-- The texts of a filter with parentheses around every conjunction and disjunction, where `leaf`
says how conditions are written. -/
inductive Writes (leaf : Comparison → List Char → Prop) : Filter → List Char → Prop
  | test {c : Comparison} {cs : List Char} (hleaf : leaf c cs) : Writes leaf (.test c) cs
  | bang {f : Filter} {cs : List Char} (hf : Writes leaf f cs) : Writes leaf (.not f) ('!' :: cs)
  | not {f : Filter} {w gap cs : List Char} (hw : Text.sameLetters w ['n', 'o', 't'] = true)
      (hgap : Text.Blanks gap) (hends : gap ≠ [] ∨ cs.head? = some '(') (hf : Writes leaf f cs) :
      Writes leaf (.not f) (w ++ gap ++ cs)
  | joined (k : Connective) {first : Filter} {cs : List Char} (hfirst : Writes leaf first cs)
      {others : List Clause} (hne : others ≠ []) (hsigns : ∀ o ∈ others, k.Written o.sign)
      (hothers : ∀ o ∈ others, Writes leaf o.filter o.text) :
      Writes leaf (k.node (first :: others.map (·.filter)))
        ('(' :: (cs ++ others.flatMap (fun o => o.sign ++ o.text) ++ [')']))
  | padded {f : Filter} {front cs back : List Char} (hfront : Text.Blanks front)
      (hback : Text.Blanks back) (hf : Writes leaf f cs) : Writes leaf f (front ++ cs ++ back)

/-- Conditions that are read as one token wherever they stand. -/
structure ReadsLeaves (leaf : Comparison → List Char → Prop) : Prop where
  startsPlainly : ∀ c cs, leaf c cs → StartsPlainly cs
  lexes : ∀ c cs, leaf c cs →
    ∃ text words, Lexes cs [.fragment text words] ∧ Comparison.read text words = .ok c

section Reading

variable {leaf : Comparison → List Char → Prop}

/-- The text of a filter starts plainly. -/
theorem Writes.startsPlainly (hleaf : ReadsLeaves leaf) {f : Filter} {cs : List Char}
    (h : Writes leaf f cs) : StartsPlainly cs := by
  induction h with
  | test hwrites => exact hleaf.startsPlainly _ _ hwrites
  | bang _ _ => exact ⟨'!', _, rfl, by decide⟩
  | @not f w gap cs hw _ _ _ _ =>
      obtain ⟨c, w, rfl⟩ := List.exists_cons_of_ne_nil (ne_nil_of_sameLetters (by simp) hw)
      have hletter := isLetter_of_sameLetters (by decide) hw c List.mem_cons_self
      exact startsPlainly_of_isLetter hletter (w ++ gap ++ cs)
  | joined _ _ _ _ _ _ => exact ⟨'(', _, rfl, by decide⟩
  | @padded f front cs back hfront _ _ ih =>
      rw [List.append_assoc]
      cases front with
      | nil => exact ih.append back
      | cons c front =>
          exact ⟨c, _, rfl, Text.not_mem_of_isBlank (by decide) (hfront c List.mem_cons_self)⟩

/-- Operands with their connectives between them have the tokens of the operands, one after the
other. -/
theorem lexes_clauses {k : Connective} {others : List Clause}
    (hsigns : ∀ o ∈ others, k.Written o.sign)
    (hothers : ∀ o ∈ others, ∃ ts, Lexes o.text ts ∧ Spells o.filter ts)
    {cs : List Char} {ts : List Token} (hfirst : Lexes cs ts) :
    ∃ items : List (Filter × List Token), items.map Prod.fst = others.map (·.filter) ∧
      (∀ i ∈ items, Spells i.1 i.2) ∧
      Lexes (cs ++ others.flatMap fun o => o.sign ++ o.text)
        (ts ++ items.flatMap fun i => k.token :: i.2) := by
  induction others generalizing cs ts with
  | nil => exact ⟨[], rfl, by simp, by simpa using hfirst⟩
  | cons o others ih =>
      obtain ⟨us, hus, hspells⟩ := hothers o List.mem_cons_self
      have hnext := hfirst.connected (hsigns o List.mem_cons_self).signs hus
      obtain ⟨items, hfilters, hitems, hlexes⟩ :=
        ih (fun p hp => hsigns p (List.mem_cons_of_mem _ hp))
          (fun p hp => hothers p (List.mem_cons_of_mem _ hp)) hnext
      refine ⟨(o.filter, us) :: items, by simp [hfilters], ?_, by simpa using hlexes⟩
      intro i hi
      rcases List.mem_cons.mp hi with rfl | hi
      · exact hspells
      · exact hitems i hi

/-- **A written filter has the tokens of the filter.** -/
theorem Writes.lexes (hleaf : ReadsLeaves leaf) {f : Filter} {cs : List Char}
    (h : Writes leaf f cs) : ∃ ts, Lexes cs ts ∧ Spells f ts := by
  induction h with
  | @test c cs hwrites =>
      obtain ⟨text, words, hlexes, hread⟩ := hleaf.lexes _ _ hwrites
      exact ⟨_, hlexes, .test hread⟩
  | @bang f cs hf ih =>
      obtain ⟨ts, hlexes, hspells⟩ := ih
      have hsign : ∀ rest out, scan .outside [] out (['!'] ++ (cs ++ rest)) =
          scan .outside [] (Token.not :: out) (cs ++ rest) := fun rest out =>
        scan_negation ((hf.startsPlainly hleaf).append rest).beginsOperator out
      exact ⟨_, hlexes.negated hsign, .not hspells⟩
  | @not f w gap cs hw hgap hends hf ih =>
      obtain ⟨ts, hlexes, hspells⟩ := ih
      have hword := scans_letters (isLetter_of_sameLetters (by decide) hw)
        (ne_nil_of_sameLetters (by simp) hw)
      rw [ofWord_not hw] at hword
      have hsign : ∀ rest out, scan .outside [] out (w ++ gap ++ (cs ++ rest)) =
          scan .outside [] (Token.not :: out) (cs ++ rest) := by
        intro rest out
        have hendsWord : EndsWord (gap ++ (cs ++ rest)) := by
          cases gap with
          | cons c gap => exact endsWord_gap hgap (List.cons_ne_nil _ _) _
          | nil =>
              have hparen := hends.resolve_left (fun hne => hne rfl)
              obtain ⟨tail, rfl⟩ := List.head?_eq_some_iff.mp hparen
              exact endsWord_openParen _
        rw [List.append_assoc, hword _ _ hendsWord, scan_blanks hgap]
        rfl
      exact ⟨_, hlexes.negated hsign, .not hspells⟩
  | @joined k first cs _ others hne hsigns _ ihfirst ihothers =>
      obtain ⟨ts, hfirst, hspells⟩ := ihfirst
      obtain ⟨items, hfilters, hitems, hlexes⟩ := lexes_clauses hsigns ihothers hfirst
      have hitemsNe : items ≠ [] := by
        rintro rfl
        exact hne (List.map_eq_nil_iff.mp hfilters.symm)
      rw [← hfilters]
      exact ⟨_, hlexes.enclosed, .joined k hspells hitemsNe hitems⟩
  | padded hfront hback _ ih =>
      obtain ⟨ts, hlexes, hspells⟩ := ih
      exact ⟨ts, hlexes.padded hfront hback, hspells⟩

/-- A written filter is read as itself under limits that leave room for it. -/
theorem Writes.read (hleaf : ReadsLeaves leaf) {f : Filter} {cs : List Char}
    (h : Writes leaf f cs) {limits : Limits}
    (hlength : (String.ofList cs).utf8ByteSize ≤ limits.clamped.filterLength.toNat)
    (hheight : f.height ≤ limits.clamped.filterDepth.toNat)
    (hrun : f.negationRun ≤ limits.clamped.negationRun.toNat)
    (hleaves : f.leaves.length ≤ limits.clamped.filterLeaves.toNat) :
    read (String.ofList cs) limits = .ok f := by
  obtain ⟨ts, hlexes, hspells⟩ := h.lexes hleaf
  have htokens := hlexes.ofText
  rw [← String.toList_ofList (l := cs)] at htokens
  have hlead := leadingNegations_le_negationRun f
  have hroom : Counts.zero.Room limits.clamped f :=
    ⟨Nat.zero_le _, by simp only [Counts.zero]; omega, by simp only [Counts.zero]; omega, hrun,
      by simp only [Counts.zero]; omega⟩
  obtain ⟨m, _, hpasses⟩ := hspells.passes hroom
  have hbreach := hpasses [] rfl
  rw [List.append_nil] at hbreach
  have htree := hspells.ofTokens hheight
  cases ts with
  | nil => cases hspells
  | cons t ts => exact read_of_tokens hlength htokens hbreach htree

/-- Written operands with one connective between them, and no parentheses around them all, are read as
the node of these operands. -/
theorem Writes.read_joined (limits : Limits) (hleaf : ReadsLeaves leaf) (k : Connective)
    {first : Filter} {cs : List Char} (hfirst : Writes leaf first cs) {others : List Clause}
    (hsigns : ∀ o ∈ others, k.Written o.sign)
    (hothers : ∀ o ∈ others, Writes leaf o.filter o.text)
    (hlength : (String.ofList (cs ++ others.flatMap fun o => o.sign ++ o.text)).utf8ByteSize ≤
      limits.clamped.filterLength.toNat)
    (hheight : heightOfAll (first :: others.map (·.filter)) ≤ limits.clamped.filterDepth.toNat)
    (hrun : negationRunOfAll (first :: others.map (·.filter)) ≤ limits.clamped.negationRun.toNat)
    (hleaves : (leavesOfAll (first :: others.map (·.filter))).length ≤
      limits.clamped.filterLeaves.toNat) :
    Filter.read (String.ofList (cs ++ others.flatMap fun o => o.sign ++ o.text)) limits =
      .ok (k.gather first (others.map (·.filter))) := by
  obtain ⟨ts, hlexes, hspells⟩ := hfirst.lexes hleaf
  obtain ⟨items, hfilters, hitems, hall⟩ :=
    lexes_clauses hsigns (fun o ho => (hothers o ho).lexes hleaf) hlexes
  have htokens := hall.ofText
  rw [← String.toList_ofList (l := cs ++ others.flatMap fun o => o.sign ++ o.text)] at htokens
  rw [← hfilters] at hheight hrun hleaves ⊢
  simp only [heightOfAll, negationRunOfAll, leavesOfAll, List.length_append] at hheight hrun hleaves
  have hlead := leadingNegations_le_negationRun first
  have hroom : Counts.zero.Room limits.clamped first :=
    ⟨Nat.zero_le _, by simp only [Counts.zero]; omega, by simp only [Counts.zero]; omega, by omega,
      by simp only [Counts.zero]; omega⟩
  obtain ⟨n, hn, hpassFirst⟩ := hspells.passes hroom
  obtain ⟨hdepth, hdeepest, hnegations, hcount⟩ := hn
  simp only [Counts.zero] at hdepth hcount
  obtain ⟨m, _, hpassOthers⟩ := passes_others k (fun i hi _ hroom => (hitems i hi).passes hroom)
    hnegations hdeepest (by omega) (by omega) (by omega)
  have hbreach := (hpassFirst.append hpassOthers) [] rfl
  rw [List.append_nil] at hbreach
  have htree := ofTokens_iff_derives.mpr (Derives.joined k (hspells.derives (by omega))
    fun i hi => (hitems i hi).derives
      (heightOfAll_le_iff.mp (Nat.le_trans (Nat.le_max_right _ _) hheight) _
        (List.mem_map_of_mem hi)))
  cases ts with
  | nil => cases hspells
  | cons t ts => exact read_of_tokens hlength htokens hbreach htree

end Reading

end ListingQuery.Filter
