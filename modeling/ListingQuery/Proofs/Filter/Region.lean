import ListingQuery.Filter.Reading
import ListingQuery.Proofs.Text.Blank

/-!
# Where operators stand

The search for the operator of a condition walks over the text and looks for a spelling wherever no
quote and no list is open.  This file follows the walk.

* `Spelling.at?_append` says that a character that begins no operator ends every spelling before
  it, so that what is spelled at a place does not depend on what stands behind the character;
* `Region.Covers` are the texts in which a quote or a list is open everywhere, and `cut_of_covers`
  passes over them;
* `cut_append_of_silent` skips the characters that neither spell nor open anything, and `cut_at`
  is the place where the walk stops;
* `cut_append` splits a walk at any such character: either it has stopped before, or it goes on from
  the region that the text before leaves open (`Region.after`);
* `cut_eq_some` is what a walk that stops has found.
-/

namespace ListingQuery

/-! ## Spellings -/

namespace Spelling

/-- The characters that operators are spelled with. -/
def starts : List Char :=
  ['>', '<', '=', '!', '%', '~', '∈', '∉', '∋', '∌']

/-- Operators consist of characters that operators begin with. -/
theorem mem_starts_of_mem_chars : ∀ s ∈ all, ∀ c ∈ s.chars, c ∈ starts := by
  have hchars : ∀ s ∈ all, s.chars.all starts.contains = true := by decide
  intro s hs c hc
  exact List.contains_iff_mem.mp (List.all_eq_true.mp (hchars s hs) c hc)

/-- Every spelling is the longest one in its own text. -/
theorem at?_chars : ∀ s ∈ all, at? s.chars = some s := by
  decide

theorem chars_ne_nil : ∀ s ∈ all, s.chars ≠ [] := by
  decide

/-- What begins here is one of the operators. -/
theorem mem_all_of_at? {cs : List Char} {s : Spelling} (hat : at? cs = some s) : s ∈ all :=
  List.mem_of_find?_eq_some hat

/-- A spelling that is found stands at the beginning of the text. -/
theorem prefix_of_at? {cs : List Char} {s : Spelling} (hat : at? cs = some s) :
    s.chars <+: cs :=
  List.isPrefixOf_iff_prefix.mp
    (List.find?_some (p := fun s : Spelling => s.chars.isPrefixOf cs) hat)

/-- No spelling reaches over a character that it does not have. -/
theorem isPrefixOf_append_of_not_mem {p : List Char} {d : Char} (hd : d ∉ p)
    (cs rest : List Char) : p.isPrefixOf (cs ++ d :: rest) = p.isPrefixOf cs := by
  induction cs generalizing p with
  | nil =>
      cases p with
      | nil => rfl
      | cons c p =>
          have hne : (c == d) = false := by
            simp only [beq_eq_false_iff_ne]
            exact fun heq => hd (heq ▸ List.mem_cons_self)
          simp [List.isPrefixOf, hne]
  | cons e cs ih =>
      cases p with
      | nil => rfl
      | cons c p =>
          have hrest := ih (p := p) (fun hmem => hd (List.mem_cons_of_mem _ hmem))
          simp [List.isPrefixOf, hrest]

/-- Conditions that agree on a list find the same in it. -/
theorem find?_congr {p q : Spelling → Bool} {ss : List Spelling} (hpq : ∀ s ∈ ss, p s = q s) :
    ss.find? p = ss.find? q := by
  induction ss with
  | nil => rfl
  | cons s ss ih =>
      rw [List.find?_cons, List.find?_cons, hpq s List.mem_cons_self,
        ih fun t ht => hpq t (List.mem_cons_of_mem _ ht)]

/-- What is spelled at a place is decided before the next character that begins no operator. -/
theorem at?_append {d : Char} (hd : d ∉ starts) (cs rest : List Char) :
    at? (cs ++ d :: rest) = at? cs := by
  unfold at?
  have hsame : ∀ s ∈ all, s.chars.isPrefixOf (cs ++ d :: rest) = s.chars.isPrefixOf cs :=
    fun s hs => isPrefixOf_append_of_not_mem
      (fun hmem => hd (mem_starts_of_mem_chars s hs d hmem)) cs rest
  exact find?_congr hsame

/-- A spelling with a character behind it that begins no operator is found there. -/
theorem at?_chars_append {s : Spelling} (hs : s ∈ all) {d : Char} (hd : d ∉ starts)
    (rest : List Char) : at? (s.chars ++ d :: rest) = some s := by
  rw [at?_append hd, at?_chars s hs]

/-- No operator begins with another character. -/
theorem at?_of_not_mem_starts {c : Char} (hc : c ∉ starts) (rest : List Char) :
    at? (c :: rest) = none :=
  at?_append hc [] rest

end Spelling

/-! ## Regions -/

namespace Region

/-- The region behind a text, `before` being the text in front of it, in reverse. -/
def after (r : Region) (before : List Char) : List Char → Region
  | [] => r
  | c :: cs => after (r.next before c) (c :: before) cs

/-- A character that stands outside leaves the place outside. -/
theorem next_of_isOpen {r : Region} {before : List Char} {c : Char}
    (hopen : r.isOpen before c = true) : r = outside ∧ r.next before c = r := by
  simp only [isOpen, Bool.and_eq_true, beq_iff_eq, Bool.not_eq_true', bne_iff_ne] at hopen
  obtain ⟨⟨rfl, hquote⟩, hbracket⟩ := hopen
  refine ⟨rfl, ?_⟩
  have hlist : decide (0 < outside.brackets) = false := rfl
  unfold next
  rw [hlist]
  simp [outside, hquote, hbracket]

/-- A character that neither opens nor closes anything and begins no operator. -/
def Silent (c : Char) : Prop :=
  isQuote c = false ∧ c ≠ '[' ∧ c ∉ Spelling.starts

/-- Outside of quotes and lists an operator may begin at every character that opens none. -/
theorem isOpen_outside {c : Char} (hquote : isQuote c = false) (hbracket : c ≠ '[')
    (before : List Char) : outside.isOpen before c = true := by
  simp [isOpen, hquote, hbracket]

/-- Outside of quotes and lists an operator may begin wherever its first character stands. -/
theorem isOpen_of_mem_starts {c : Char} (hc : c ∈ Spelling.starts) (before : List Char) :
    outside.isOpen before c = true := by
  have hplain : Spelling.starts.all (fun c => !isQuote c && c != '[') = true := by decide
  have hc := List.all_eq_true.mp hplain c hc
  simp only [Bool.and_eq_true, Bool.not_eq_true', bne_iff_ne] at hc
  exact isOpen_outside hc.1 hc.2 before

theorem silent_of_isBlank {c : Char} (hblank : Text.isBlank c = true) : Silent c := by
  have hnot : c ∉ '"' :: '\'' :: '[' :: Spelling.starts :=
    Text.not_mem_of_isBlank (by decide) hblank
  simp only [List.mem_cons, not_or] at hnot
  obtain ⟨hdouble, hsingle, hbracket, hstart⟩ := hnot
  exact ⟨by simp [isQuote, hdouble, hsingle], hbracket, hstart⟩

/-- A text in which every character stands inside a quote or a list, or opens one.  `Covers r before
cs s` says it of `cs` behind `before`, in reverse, and that the region changes from `r` to `s`. -/
inductive Covers : Region → List Char → List Char → Region → Prop
  | nil {r : Region} {before : List Char} : Covers r before [] r
  | cons {r s : Region} {before cs : List Char} {c : Char} (hclosed : r.isOpen before c = false)
      (hrest : Covers (r.next before c) (c :: before) cs s) : Covers r before (c :: cs) s

/-- Texts that are passed over one by one are passed over together. -/
theorem Covers.append {r s t : Region} {before cs ds : List Char} (h : Covers r before cs s)
    (h' : Covers s (cs.reverse ++ before) ds t) : Covers r before (cs ++ ds) t := by
  induction h with
  | nil => exact h'
  | cons hclosed _ ih => exact .cons hclosed (ih (by simpa using h'))

/-- A quote goes on over every text without its own sign. -/
theorem covers_quote {q : Char} {v : List Char} (hv : q ∉ v) (n : Nat) (before : List Char) :
    Covers ⟨some q, n⟩ before v ⟨some q, n⟩ := by
  induction v generalizing before with
  | nil => exact .nil
  | cons c v ih =>
      have hne : c ≠ q := fun heq => hv (heq ▸ List.mem_cons_self)
      have hnext : next ⟨some q, n⟩ before c = ⟨some q, n⟩ := by simp [next, hne]
      refine .cons rfl ?_
      rw [hnext]
      exact ih (fun hmem => hv (List.mem_cons_of_mem _ hmem)) _

/-- Where a quote opens, a quoted text stands inside it, whatever it is. -/
theorem covers_quoted {v : List Char} (hv : '"' ∉ v) {n : Nat} {before : List Char}
    (hopens : opensQuote before (decide (0 < n)) = true) :
    Covers ⟨none, n⟩ before ('"' :: (v ++ ['"'])) ⟨none, n⟩ := by
  have hopening : isOpen ⟨none, n⟩ before '"' = false := by
    cases n with
    | zero => simp only [isOpen, show opensQuote before false = true from hopens]; rfl
    | succ n => rfl
  have hinside : next ⟨none, n⟩ before '"' = ⟨some '"', n⟩ := by
    unfold next
    simp only [hopens]
    rfl
  have hclosing : ∀ word, next ⟨some '"', n⟩ word '"' = ⟨none, n⟩ := by
    intro word
    simp [next]
  refine .cons hopening ?_
  rw [hinside]
  refine (covers_quote hv n _).append (.cons rfl ?_)
  rw [hclosing]
  exact .nil

/-- A list goes on over every text without quotes and brackets. -/
theorem covers_list {v : List Char}
    (hv : ∀ c ∈ v, isQuote c = false ∧ c ≠ '[' ∧ c ≠ ']') (before : List Char) :
    Covers ⟨none, 1⟩ before v ⟨none, 1⟩ := by
  induction v generalizing before with
  | nil => exact .nil
  | cons c v ih =>
      obtain ⟨hquote, hopening, hclosing⟩ := hv c List.mem_cons_self
      have hnext : next ⟨none, 1⟩ before c = ⟨none, 1⟩ := by
        simp [next, hquote, hopening, hclosing]
      refine .cons rfl ?_
      rw [hnext]
      exact ih (fun d hd => hv d (List.mem_cons_of_mem _ hd)) _

/-- Brackets around a text that leaves their list open close the list. -/
theorem Covers.brackets {v before : List Char}
    (h : Covers ⟨none, 1⟩ ('[' :: before) v ⟨none, 1⟩) :
    Covers outside before ('[' :: (v ++ [']'])) outside := by
  have hopening : outside.isOpen before '[' = false := by simp [isOpen]
  have hinside : outside.next before '[' = ⟨none, 1⟩ := rfl
  refine .cons hopening ?_
  rw [hinside]
  exact h.append (.cons rfl .nil)

end Region

/-! ## The search -/

namespace Comparison

/-- Where a quote or a list is open, or opens, the search goes on behind the character. -/
theorem cut_of_not_isOpen {r : Region} {before rest : List Char} {c : Char}
    (hopen : r.isOpen before c = false) :
    cutAtOperator? r before (c :: rest) = cutAtOperator? (r.next before c) (c :: before) rest := by
  rw [cutAtOperator?, hopen]
  rfl

/-- Outside, a character at which nothing is spelled is passed. -/
theorem cut_of_at?_none {r : Region} {before rest : List Char} {c : Char}
    (hopen : r.isOpen before c = true) (hat : Spelling.at? (c :: rest) = none) :
    cutAtOperator? r before (c :: rest) = cutAtOperator? (r.next before c) (c :: before) rest := by
  rw [cutAtOperator?, hopen, hat, (Region.next_of_isOpen hopen).2]
  rfl

/-- Outside, the search stops at a spelling. -/
theorem cut_of_at?_some {r : Region} {before rest : List Char} {c : Char} {s : Spelling}
    (hopen : r.isOpen before c = true) (hat : Spelling.at? (c :: rest) = some s) :
    cutAtOperator? r before (c :: rest) =
      some (before.reverse, s, (c :: rest).drop s.chars.length) := by
  rw [cutAtOperator?, hopen, hat]
  rfl

/-- Nothing is found where a quote or a list is open. -/
theorem cut_of_covers {r s : Region} {before cs : List Char} (h : Region.Covers r before cs s)
    (rest : List Char) :
    cutAtOperator? r before (cs ++ rest) = cutAtOperator? s (cs.reverse ++ before) rest := by
  induction h with
  | nil => rfl
  | cons hclosed _ ih =>
      rw [List.cons_append, cut_of_not_isOpen hclosed, ih]
      simp

/-- A text of quotes and lists has no operator. -/
theorem operatorIn?_of_covers {cs : List Char} {s : Region} (h : Region.Covers .outside [] cs s) :
    operatorIn? cs = none := by
  have hcut := cut_of_covers h []
  rw [List.append_nil] at hcut
  exact hcut

/-- Where nothing opens, nothing is found exactly if nothing is spelled. -/
theorem cut_eq_none_iff {v : List Char} (hv : ∀ c ∈ v, Region.isQuote c = false ∧ c ≠ '[')
    (before : List Char) :
    cutAtOperator? .outside before v = none ↔ ∀ s ∈ Spelling.all, ¬ s.chars <:+: v := by
  induction v generalizing before with
  | nil =>
      have hnone : ∀ s ∈ Spelling.all, ¬ s.chars <:+: [] := fun s hs hin =>
        Spelling.chars_ne_nil s hs (List.infix_nil.mp hin)
      exact ⟨fun _ => hnone, fun _ => rfl⟩
  | cons c v ih =>
      obtain ⟨hquote, hopening⟩ := hv c List.mem_cons_self
      have hopen := Region.isOpen_outside hquote hopening before
      have hrest := ih (fun d hd => hv d (List.mem_cons_of_mem _ hd)) (c :: before)
      cases hat : Spelling.at? (c :: v) with
      | some t =>
          have hin := (Spelling.prefix_of_at? hat).isInfix
          rw [cut_of_at?_some hopen hat]
          exact ⟨nofun, fun h => absurd hin (h t (Spelling.mem_all_of_at? hat))⟩
      | none =>
          rw [cut_of_at?_none hopen hat, (Region.next_of_isOpen hopen).2, hrest]
          constructor
          · intro hnone s hs hin
            rcases List.infix_cons_iff.mp hin with hprefix | hinside
            · exact List.find?_eq_none.mp hat s hs (List.isPrefixOf_iff_prefix.mpr hprefix)
            · exact hnone s hs hinside
          · intro hnone s hs hin
            exact hnone s hs (hin.trans (List.suffix_cons c v).isInfix)

/-- There is no cut in a text that is silent. -/
theorem cut_append_of_silent {cs : List Char} (hcs : ∀ c ∈ cs, Region.Silent c)
    (before rest : List Char) :
    cutAtOperator? .outside before (cs ++ rest) =
      cutAtOperator? .outside (cs.reverse ++ before) rest := by
  induction cs generalizing before with
  | nil => rfl
  | cons c cs ih =>
      obtain ⟨hquote, hbracket, hstart⟩ := hcs c List.mem_cons_self
      have hopen := Region.isOpen_outside hquote hbracket before
      have hnone := Spelling.at?_of_not_mem_starts hstart (cs ++ rest)
      rw [List.cons_append, cut_of_at?_none hopen hnone, (Region.next_of_isOpen hopen).2,
        ih fun d hd => hcs d (List.mem_cons_of_mem _ hd)]
      simp

/-- The search stops at a spelling that is found outside. -/
theorem cut_at {s : Spelling} {rest : List Char}
    (hat : Spelling.at? (s.chars ++ rest) = some s) (before : List Char) :
    cutAtOperator? .outside before (s.chars ++ rest) = some (before.reverse, s, rest) := by
  have hs := Spelling.mem_all_of_at? hat
  cases hchars : s.chars with
  | nil => exact absurd hchars (Spelling.chars_ne_nil s hs)
  | cons c cs =>
      have hstart := Spelling.mem_starts_of_mem_chars s hs c (by simp [hchars])
      rw [hchars, List.cons_append] at hat
      rw [List.cons_append, cut_of_at?_some (Region.isOpen_of_mem_starts hstart before) hat, hchars]
      simp

/-- **Splitting a search.**  At a character that begins no operator the search has either stopped
before, or it goes on from the region that the text before leaves. -/
theorem cut_append {d : Char} (hd : d ∉ Spelling.starts) (r : Region)
    (before cs rest : List Char) :
    cutAtOperator? r before (cs ++ d :: rest) =
      match cutAtOperator? r before cs with
      | some (x, s, y) => some (x, s, y ++ d :: rest)
      | none => cutAtOperator? (r.after before cs) (cs.reverse ++ before) (d :: rest) := by
  induction cs generalizing r before with
  | nil => rfl
  | cons c cs ih =>
      cases hopen : r.isOpen before c with
      | false =>
          rw [List.cons_append, cut_of_not_isOpen hopen, cut_of_not_isOpen hopen, ih]
          simp [Region.after]
      | true =>
          have hsame := Spelling.at?_append hd (c :: cs) rest
          rw [List.cons_append] at hsame
          cases hat : Spelling.at? (c :: cs) with
          | none =>
              rw [hat] at hsame
              rw [List.cons_append, cut_of_at?_none hopen hsame, cut_of_at?_none hopen hat, ih]
              simp [Region.after]
          | some s =>
              rw [hat] at hsame
              have hle := (Spelling.prefix_of_at? hat).length_le
              rw [List.cons_append, cut_of_at?_some hopen hsame, cut_of_at?_some hopen hat,
                ← List.cons_append, List.drop_append_of_le_length hle]

/-- What the search finds are three consecutive pieces of the text, the spelling being the longest
that there is at its place. -/
theorem cut_eq_some {r : Region} {before cs x y : List Char} {s : Spelling}
    (hcut : cutAtOperator? r before cs = some (x, s, y)) :
    before.reverse ++ cs = x ++ (s.chars ++ y) ∧ Spelling.at? (s.chars ++ y) = some s := by
  induction cs generalizing r before with
  | nil => cases hcut
  | cons c cs ih =>
      cases hopen : r.isOpen before c with
      | false =>
          rw [cut_of_not_isOpen hopen] at hcut
          simpa using ih hcut
      | true =>
          cases hat : Spelling.at? (c :: cs) with
          | none =>
              rw [cut_of_at?_none hopen hat] at hcut
              simpa using ih hcut
          | some s' =>
              rw [cut_of_at?_some hopen hat, Option.some.injEq, Prod.mk.injEq,
                Prod.mk.injEq] at hcut
              obtain ⟨rfl, rfl, rfl⟩ := hcut
              obtain ⟨rest, hrest⟩ := Spelling.prefix_of_at? hat
              rw [← hrest] at hat ⊢
              rw [List.drop_left]
              exact ⟨rfl, hat⟩

/-- There is no operator in blanks. -/
theorem cut_blanks {gap : List Char} (hgap : Text.Blanks gap) (r : Region)
    (before : List Char) : cutAtOperator? r before gap = none := by
  induction gap generalizing r before with
  | nil => rfl
  | cons c gap ih =>
      cases hopen : r.isOpen before c with
      | false => rw [cut_of_not_isOpen hopen, ih hgap.tail]
      | true =>
          have hstart := (Region.silent_of_isBlank (hgap c List.mem_cons_self)).2.2
          rw [cut_of_at?_none hopen (Spelling.at?_of_not_mem_starts hstart gap), ih hgap.tail]

/-- Blanks at the back hide no operator and make none. -/
theorem operatorIn?_trimEnd (cs : List Char) :
    operatorIn? (Text.trimEnd cs) = none ↔ operatorIn? cs = none := by
  obtain ⟨gap, hgap, hcs⟩ := Text.exists_trimEnd cs
  cases gap with
  | nil =>
      rw [List.append_nil] at hcs
      rw [← hcs]
  | cons d gap =>
      have hstart := (Region.silent_of_isBlank (hgap d List.mem_cons_self)).2.2
      have hsplit := cut_append hstart .outside [] (Text.trimEnd cs) gap
      rw [← hcs, cut_blanks hgap] at hsplit
      unfold operatorIn?
      rw [hsplit]
      cases cutAtOperator? Region.outside [] (Text.trimEnd cs) <;> simp

end Comparison

end ListingQuery
