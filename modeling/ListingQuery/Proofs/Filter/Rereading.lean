import ListingQuery.Proofs.Filter.Bounds
import ListingQuery.Proofs.Filter.RereadCondition
import ListingQuery.Proofs.Filter.Tightening

/-!
# Displayed filters read again

The displayed text of an accepted filter may be refused, because a limit is stricter on it or
because an operand is displayed in a way that cannot be read.  If it is accepted, then it may be
another filter; but that is decided by the conditions one by one.

* `Marks` are the texts that are displayed between the conditions, each of which is one token;
* `ofText_text` puts the tokens of a displayed filter together from those of its conditions;
* `Recovers` goes the other way: conditions that are read where they stand can be read alone;
* `displayed_filter_reread_iff` says when the filter that is read is the one that was displayed.
-/

namespace ListingQuery

namespace Filter

namespace Token

/-! ## Texts between conditions -/

/-- A text that stands for a token wherever a word may begin. -/
structure Marks (t : Token) (sign : List Char) : Prop where
  not_fragment : t.isFragment = false
  scan : ∀ rest out,
    Token.scan .outside [] out (sign ++ rest) = Token.scan .outside [] (t :: out) rest

/-- The sign of a connective is read as its token. -/
theorem marks_sign (k : Connective) : Marks k.token k.sign :=
  ⟨k.token_isFragment, k.written_sign.signs.scan⟩

/-- The word of a negation is read as its token. -/
theorem marks_not : Marks .not ['N', 'O', 'T', ' '] := by
  refine ⟨rfl, fun rest out => ?_⟩
  have hsame : Text.sameLetters ['N', 'O', 'T'] ['n', 'o', 't'] = true := by decide
  have hword := scans_letters (isLetter_of_sameLetters (by decide) hsame) (by simp) (' ' :: rest)
    out (endsWord_blank (by decide) rest)
  rw [ofWord_not hsame, scan_blank (by decide), flush_nil] at hword
  exact hword

/-- A parenthesis that opens is read as its token. -/
theorem marks_openParen : Marks .openParen ['('] :=
  ⟨rfl, fun rest out => scan_openParen [] rest out⟩

/-- A parenthesis that closes is read as its token. -/
theorem marks_closeParen : Marks .closeParen [')'] :=
  ⟨rfl, fun rest out => scan_closeParen [] rest out⟩

variable {t : Token} {sign as cs tail : List Char} {ts us ws : List Token}

/-- What stands behind a mark is lexed as if it stood alone. -/
theorem Marks.scan_eq_ok (h : Marks t sign)
    (hscan : Token.scan .outside [] [] (sign ++ cs) = .ok ws) :
    ∃ vs, ws = t :: vs ∧ Token.scan .outside [] [] cs = .ok vs := by
  rw [h.scan] at hscan
  exact scan_out_eq_ok hscan

/-- A detached sign closes what is before it. -/
theorem Marks.closing (h : Marks t sign) (hdetached : Detached (sign ++ cs)) :
    Closing (sign ++ cs) := by
  refine ⟨hdetached, fun ws hscan => ?_⟩
  obtain ⟨vs, rfl, _⟩ := h.scan_eq_ok hscan
  exact apart_cons h.not_fragment vs

/-- The end of a text closes what is before it. -/
theorem closing_nil : Closing [] := by
  refine ⟨detached_nil, fun ws hscan => ?_⟩
  cases hscan
  exact apart_nil

/-- A parenthesis closes what is before it. -/
theorem closing_closeParen (cs : List Char) : Closing (')' :: cs) :=
  marks_closeParen.closing (detached_closeParen cs)

/-- The sign of a connective closes what is before it. -/
theorem closing_sign (k : Connective) (cs : List Char) : Closing (k.sign ++ cs) := by
  refine (marks_sign k).closing ?_
  cases k <;> exact detached_space _

/-- A mark in front of a text. -/
theorem Marks.ofText (h : Marks t sign) (hcs : ofText cs = .ok ts) :
    ofText (sign ++ cs) = .ok (t :: ts) := by
  obtain ⟨ws, hscan, rfl⟩ := ofText_eq_ok_iff.mp hcs
  refine ofText_eq_ok_iff.mpr ⟨t :: ws, ?_, joined_cons_of_not_fragment h.not_fragment ws⟩
  rw [h.scan, scan_out hscan]
  rfl

/-- The tokens of a text are found in front of another one, if no condition follows. -/
theorem joined_of_scan_append (has : Token.ofText as = .ok ts) (htail : Closing tail)
    (hscan : Token.scan .outside [] [] (as ++ tail) = .ok ws) :
    ∃ vs, Token.scan .outside [] [] tail = .ok vs ∧ joined ws = ts ++ joined vs := by
  obtain ⟨front, hfront, rfl⟩ := ofText_eq_ok_iff.mp has
  rw [scan_append_detached hfront htail.detached] at hscan
  obtain ⟨vs, rfl, hvs⟩ := scan_out_eq_ok hscan
  refine ⟨vs, hvs, ?_⟩
  simp [joined_append_of_apart front (htail.apart vs hvs)]

/-- Two texts behind each other, if the second one does not begin with a condition. -/
theorem ofText_append (has : Token.ofText as = .ok ts) (htail : Closing tail)
    (hus : Token.ofText tail = .ok us) : Token.ofText (as ++ tail) = .ok (ts ++ us) := by
  obtain ⟨front, hfront, rfl⟩ := ofText_eq_ok_iff.mp has
  obtain ⟨back, hback, rfl⟩ := ofText_eq_ok_iff.mp hus
  refine ofText_eq_ok_iff.mpr
    ⟨front ++ back, ?_, joined_append_of_apart front (htail.apart back hback)⟩
  rw [scan_append_detached hfront htail.detached, scan_out hback]
  simp

end Token

open Token

/-! ## From the conditions to the filter -/

/-- Operands with the displayed connective between them. -/
theorem ofText_operands {k : Connective} {others : List Filter}
    (hothers : ∀ f ∈ others, ∃ ts, ofText f.text = .ok ts ∧ Spells f ts)
    {cs : List Char} {ts : List Token} (hcs : ofText cs = .ok ts) :
    ∃ items : List (Filter × List Token), items.map Prod.fst = others ∧
      (∀ i ∈ items, Spells i.1 i.2) ∧
      ofText (cs ++ others.flatMap fun f => k.sign ++ f.text) =
        .ok (ts ++ items.flatMap fun i => k.token :: i.2) := by
  induction others generalizing cs ts with
  | nil => exact ⟨[], rfl, by simp, by simpa using hcs⟩
  | cons f others ih =>
      obtain ⟨us, hus, hspells⟩ := hothers f List.mem_cons_self
      have hnext := ofText_append hcs (closing_sign k f.text) ((marks_sign k).ofText hus)
      obtain ⟨items, hfilters, hitems, hall⟩ :=
        ih (fun g hg => hothers g (List.mem_cons_of_mem _ hg)) hnext
      refine ⟨(f, us) :: items, by simp [hfilters], ?_, by simpa using hall⟩
      exact List.forall_mem_cons.mpr ⟨hspells, hitems⟩

/-- **The tokens of a displayed filter** are those that spell it, if every condition can be read
from its own text. -/
theorem ofText_text {f : Filter} (hf : f.Branching) (hleaves : ∀ c ∈ f.leaves, c.Rereads) :
    ∃ ts, ofText f.text = .ok ts ∧ Spells f ts := by
  induction f using Filter.induction with
  | always => exact hf.elim
  | test c =>
      obtain ⟨text, words, htext, hread⟩ := hleaves c List.mem_cons_self
      exact ⟨_, htext, .test hread⟩
  | not f ih =>
      obtain ⟨ts, htext, hspells⟩ := ih hf hleaves
      exact ⟨_, marks_not.ofText htext, .not hspells⟩
  | node k fs ih =>
      obtain ⟨hlength, hbranching⟩ := branching_node.mp hf
      have hparts : ∀ g ∈ fs, ∃ ts, ofText g.text = .ok ts ∧ Spells g ts := fun g hg =>
        ih g hg (hbranching g hg) fun c hc => hleaves c (mem_leaves_node hg hc)
      match fs, hlength with
      | first :: second :: others, _ =>
          obtain ⟨ts, htext, hspells⟩ := hparts first List.mem_cons_self
          obtain ⟨items, hfilters, hitems, hall⟩ := ofText_operands (k := k)
            (fun g hg => hparts g (List.mem_cons_of_mem _ hg)) htext
          have hclose : ofText [')'] = .ok [.closeParen] := rfl
          have henclosed := marks_openParen.ofText
            (ofText_append hall (closing_closeParen []) hclose)
          have hitemsNe : items ≠ [] := by
            rintro rfl
            cases hfilters
          rw [text_node, joinedText_cons, ← hfilters]
          rw [← hfilters] at henclosed
          exact ⟨_, henclosed, .joined k hspells hitemsNe hitems⟩

/-! ## From the filter to the conditions -/

/-- If the conditions are read where they stand in the text, then each of them can be read from its
own text, and what stands behind the text is read as it would be alone. -/
def Recovers (cs : List Char) (conditions : List Comparison) : Prop :=
  ∀ tail ws more, Closing tail → scan .outside [] [] (cs ++ tail) = .ok ws →
    readings (joined ws) = conditions.map Except.ok ++ more →
    (∀ c ∈ conditions, c.Rereads) ∧
      ∃ vs, scan .outside [] [] tail = .ok vs ∧ readings (joined vs) = more

/-- The text of a comparison is recovered as that comparison. -/
theorem recovers_condition (c : Comparison) : Recovers c.text [c] := by
  intro tail ws more htail hscan hread
  have hrereads := Comparison.rereads_of_readings htail hscan hread
  refine ⟨by simpa using hrereads, ?_⟩
  obtain ⟨text, words, htext, hcondition⟩ := hrereads
  obtain ⟨vs, hvs, hjoined⟩ := joined_of_scan_append htext htail hscan
  refine ⟨vs, hvs, ?_⟩
  rw [hjoined, List.singleton_append, readings_fragment] at hread
  exact (List.cons.inj hread).2

variable {as bs : List Char} {xs ys : List Comparison}

theorem Recovers.marked (h : Recovers as xs) {t : Token} {sign : List Char}
    (hmarks : Marks t sign) : Recovers (sign ++ as) xs := by
  intro tail ws more htail hscan hread
  rw [List.append_assoc] at hscan
  obtain ⟨vs, rfl, hvs⟩ := hmarks.scan_eq_ok hscan
  rw [joined_cons_of_not_fragment hmarks.not_fragment,
    readings_of_not_fragment hmarks.not_fragment] at hread
  exact h tail vs more htail hvs hread

/-- Two texts, the second of which does not begin with a condition. -/
theorem Recovers.append (ha : Recovers as xs) (hb : Recovers bs ys)
    (hclosing : ∀ tail, Closing tail → Closing (bs ++ tail)) : Recovers (as ++ bs) (xs ++ ys) := by
  intro tail ws more htail hscan hread
  rw [List.append_assoc] at hscan
  rw [List.map_append, List.append_assoc] at hread
  obtain ⟨hxs, vs, hvs, hrest⟩ := ha _ _ _ (hclosing tail htail) hscan hread
  obtain ⟨hys, us, hus, hmore⟩ := hb _ _ _ htail hvs hrest
  exact ⟨List.forall_mem_append.mpr ⟨hxs, hys⟩, us, hus, hmore⟩

theorem recovers_nil : Recovers [] [] :=
  fun _ ws _ _ hscan hread => ⟨by simp, ws, hscan, hread⟩

/-- Operands with the displayed connective between them. -/
theorem recovers_operands (k : Connective) {others : List Filter}
    (hothers : ∀ f ∈ others, Recovers f.text f.leaves) (ha : Recovers as xs) :
    Recovers (as ++ others.flatMap fun f => k.sign ++ f.text) (xs ++ leavesOfAll others) := by
  induction others generalizing as xs with
  | nil => simpa [leavesOfAll] using ha
  | cons f others ih =>
      have hf := (hothers f List.mem_cons_self).marked (marks_sign k)
      have hnext := ha.append hf fun tail _ => by
        rw [List.append_assoc]
        exact closing_sign k _
      have hall := ih (fun g hg => hothers g (List.mem_cons_of_mem _ hg)) hnext
      simpa [leavesOfAll] using hall

/-- **The conditions of a displayed filter** can be read alone, if they are read where they stand. -/
theorem recovers_text {f : Filter} (hf : f.Branching) : Recovers f.text f.leaves := by
  induction f using Filter.induction with
  | always => exact hf.elim
  | test c => exact recovers_condition c
  | not f ih => exact (ih hf).marked marks_not
  | node k fs ih =>
      obtain ⟨hlength, hbranching⟩ := branching_node.mp hf
      match fs, hlength with
      | first :: others, _ =>
          have hparts : ∀ g ∈ first :: others, Recovers g.text g.leaves := fun g hg =>
            ih g hg (hbranching g hg)
          have hinner := recovers_operands k (fun g hg => hparts g (List.mem_cons_of_mem _ hg))
            (hparts first List.mem_cons_self)
          have hclose : Recovers [')'] [] := recovers_nil.marked marks_closeParen
          have hall := (hinner.append hclose fun tail _ => closing_closeParen tail).marked
            marks_openParen
          rw [text_node, joinedText_cons, leaves_node, leavesOfAll]
          simpa using hall

/-! ## The limits -/

/-- The displayed text of a condition is a part of that of the filter. -/
theorem text_part_of_leaf {f : Filter} {c : Comparison} (hc : c ∈ f.leaves) :
    c.text <:+: f.text := by
  induction f using Filter.induction with
  | always => cases hc
  | test d =>
      rw [List.mem_singleton.mp hc]
      exact List.infix_rfl
  | not f ih => exact (ih hc).trans (List.suffix_append ['N', 'O', 'T', ' '] f.text).isInfix
  | node k fs ih =>
      rw [leaves_node, leavesOfAll_eq] at hc
      obtain ⟨g, hg, hc⟩ := List.mem_flatMap.mp hc
      have hjoined : g.text <:+: joinedText k.sign fs := by
        obtain ⟨first, others, rfl⟩ := List.exists_cons_of_ne_nil (List.ne_nil_of_mem hg)
        rw [joinedText_cons]
        rcases List.mem_cons.mp hg with rfl | hg
        · exact (List.prefix_append _ _).isInfix
        · obtain ⟨front, back, rfl⟩ := List.append_of_mem hg
          exact ⟨first.text ++ front.flatMap (fun f => k.sign ++ f.text) ++ k.sign,
            back.flatMap fun f => k.sign ++ f.text, by simp⟩
      rw [text_node]
      exact ((ih g hg hc).trans hjoined).trans ⟨['('], [')'], rfl⟩

/-- A part of a text is no longer than the text. -/
theorem utf8ByteSize_le_of_part {as bs : List Char} (h : as <:+: bs) :
    (String.ofList as).utf8ByteSize ≤ (String.ofList bs).utf8ByteSize := by
  obtain ⟨front, back, rfl⟩ := h
  rw [String.ofList_append, String.ofList_append, String.utf8ByteSize_append,
    String.utf8ByteSize_append]
  omega

/-- The filter that admits everything is displayed as a text that is refused. -/
theorem read_text_always (limits : Limits) (f : Filter) :
    read (String.ofList always.text) limits ≠ .ok f := by
  intro hread
  have htokens : ofText always.text = .ok [.fragment ['T', 'R', 'U', 'E'] 1] := rfl
  obtain ⟨_, ⟨hnil, _⟩ | ⟨t, ts, htext, _, htree⟩⟩ := read_cases hread
  · rw [String.toList_ofList, htokens] at hnil
    cases hnil
  · rw [String.toList_ofList, htokens] at htext
    cases htext
    obtain ⟨c, hc, _⟩ := ofTokens_fragment_iff.mp htree
    cases hc

/-! ## Reading again -/

/-- **When a displayed filter is read as itself.**  If the displayed text of an accepted filter is
accepted under the same limits, then it gives the same filter exactly if every condition of the
filter gives itself, when it is displayed and read on its own. -/
theorem displayed_filter_reread_iff {source : String} {limits : Limits} {e e' : Filter}
    (h : read source limits = .ok e) (hdisplay : read (String.ofList e.text) limits = .ok e') :
    e' = e ↔ ∀ c ∈ e.leaves, read (String.ofList c.text) limits = .ok (.test c) := by
  obtain ⟨_, _, _, _, rfl | hbranching⟩ := accepted_within_limits h
  · exact absurd hdisplay (read_text_always limits e')
  obtain ⟨hlength, htext⟩ := read_cases hdisplay
  rw [String.toList_ofList] at htext
  constructor
  · rintro rfl c hc
    obtain ⟨_, rfl⟩ | ⟨t, ts, htokens, _, htree⟩ := htext
    · exact hbranching.elim
    · have hreadings := readings_of_ofTokens htree
      obtain ⟨ws, hscan, hjoined⟩ := ofText_eq_ok_iff.mp htokens
      rw [← hjoined, ← List.append_nil (List.map _ _)] at hreadings
      rw [← List.append_nil e'.text] at hscan
      obtain ⟨hrereads, _⟩ := recovers_text hbranching _ _ _ closing_nil hscan hreadings
      have hpart := utf8ByteSize_le_of_part (text_part_of_leaf hc)
      obtain ⟨_, hleaves, _⟩ := accepted_within_limits hdisplay
      rw [← Limits.clamped_filterLeaves] at hleaves
      exact (hrereads c hc).read (Nat.le_trans hpart hlength)
        (Nat.le_trans (List.length_pos_of_mem hc) hleaves)
  · intro hleaves
    obtain ⟨us, hus, hspells⟩ :=
      ofText_text hbranching fun c hc => Comparison.rereads_of_read (hleaves c hc)
    obtain ⟨hnil, _⟩ | ⟨t, ts, htokens, _, htree⟩ := htext
    · rw [hus] at hnil
      cases hnil
      cases hspells
    · rw [hus] at htokens
      cases htokens
      -- with as many levels as the filter is high the tokens are read as the filter
      have hhigh := hspells.ofTokens (Nat.le_max_right limits.clamped.filterDepth.toNat e.height)
      rcases tightens_ofTokens (Nat.le_max_left limits.clamped.filterDepth.toNat e.height)
        (t :: ts) with ⟨b, hb⟩ | hsame
      · rw [htree] at hb
        cases hb
      · rw [hhigh, htree] at hsame
        exact (Except.ok.inj hsame).symm

/-- A negated disjunction of two plain conditions. -/
def negatedChoice : Filter :=
  .not (.or [.test ⟨.ort, .eqCi, "hannover", .str "hannover"⟩, .test ⟨.zimmer, .ge, "3", .int 3⟩])

/-- It is displayed and read as itself, and so are its conditions. -/
theorem negatedChoice_reread :
    read "not (ort%=hannover or zimmer>>=3)" Limits.standard = .ok negatedChoice ∧
      read (String.ofList negatedChoice.text) Limits.standard = .ok negatedChoice ∧
      ∀ c ∈ negatedChoice.leaves, read (String.ofList c.text) Limits.standard = .ok (.test c) := by
  have hread : read "not (ort%=hannover or zimmer>>=3)" Limits.standard = .ok negatedChoice :=
    eq_ok_of_toOption (by decide +kernel)
  have hdisplay : read (String.ofList negatedChoice.text) Limits.standard = .ok negatedChoice :=
    eq_ok_of_toOption (by decide +kernel)
  exact ⟨hread, hdisplay, (displayed_filter_reread_iff hread hdisplay).mp rfl⟩

/-- A listing in a town with a number for a name. -/
def numberedTown : Listing :=
  { Listing.empty with geo := some ⟨none, some "30", none, none, none, none, none, none⟩ }

/-- A quoted number is a text, but it is displayed without its quotes and read again as a number,
which admits other listings. -/
theorem quoted_number_reread :
    read "ort=='30'" Limits.standard = .ok (.test ⟨.ort, .eq, "30", .str "30"⟩) ∧
      String.ofList (Filter.test ⟨.ort, .eq, "30", .str "30"⟩).text = "ort == 30" ∧
      read "ort == 30" Limits.standard = .ok (.test ⟨.ort, .eq, "30", .int 30⟩) ∧
      evaluate numberedTown (.test ⟨.ort, .eq, "30", .str "30"⟩) = .ok true ∧
      evaluate numberedTown (.test ⟨.ort, .eq, "30", .int 30⟩) = .ok false := by
  refine ⟨eq_ok_of_toOption ?_, ?_, eq_ok_of_toOption ?_, eq_ok_of_toOption ?_,
    eq_ok_of_toOption ?_⟩ <;> decide +kernel

end Filter

end ListingQuery
