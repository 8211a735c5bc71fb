import ListingQuery.Proofs.Json.Scanning
import ListingQuery.Proofs.Number.ShortestText

/-!
# The text of a tree tells the tree

Two trees with one text are the same tree, as long as each part of them has a value and their floating
point numbers are finite.  The reader is of no use here, since it does not give every number back to
its last bit; the text itself has to be taken apart.

Every text is told from what follows it: a word ends in front of a mark, a text at its closing quote,
and an array or an object at the bracket that closes it.  So of two texts that begin with the texts of
trees and are the same, the trees are the same and what follows them.

* `Word.text_injective` is for trees that are one word: a number, a truth value or nothing;
* `strText_unique` and `intercalate_unique` are where a text and a list end;
* `Definite.unique` is where a tree ends, and `Definite.eq_of_compact` is for the whole text.
-/

namespace ListingQuery

/-! ## The characters of numbers -/

namespace Numeral

open Json (InNumber)

/-- A text consists of characters of numbers if it does behind its sign. -/
theorem inNumber_of_takeSign {cs : List Char} (h : ∀ c ∈ (takeSign cs).2, InNumber c) :
    ∀ c ∈ cs, InNumber c := by
  unfold takeSign at h
  split at h
  · exact List.forall_mem_cons.mpr ⟨by decide, h⟩
  · exact List.forall_mem_cons.mpr ⟨by decide, h⟩
  · exact h

theorem inNumber_of_exponent? {cs : List Char} {e : Int} (h : exponent? cs = some e) :
    ∀ c ∈ cs, InNumber c := by
  have hletter := head_of_exponent? h
  cases cs with
  | nil => exact fun c hc => absurd hc List.not_mem_nil
  | cons c rest =>
      have hc := hletter c rfl
      have hrest : ∀ d ∈ rest, InNumber d := by
        apply inNumber_of_takeSign
        cases hplain : Decimal.plain? (takeSign rest).2 with
        | none => simp [exponent?, hc, hplain] at h
        | some n => exact Json.inNumber_of_plain? hplain
      rcases hc with rfl | rfl <;> exact List.forall_mem_cons.mpr ⟨by decide, hrest⟩

/-- A numeral has no other characters than a number. -/
theorem inNumber_of_read? {cs : List Char} {n : Numeral} (h : read? cs = some n) :
    ∀ c ∈ cs, InNumber c := by
  apply inNumber_of_takeSign
  apply Json.inNumber_of_rest
  unfold read? at h
  dsimp only at h
  generalize (takeSign cs).2.dropWhile Decimal.isDigit = afterWhole at h
  split at h
  · rename_i rest
    split at h
    · cases h
    · obtain ⟨e, he, -⟩ := Option.map_eq_some_iff.mp h
      exact List.forall_mem_cons.mpr
        ⟨by decide, Json.inNumber_of_rest (inNumber_of_exponent? he)⟩
  · split at h
    · cases h
    · obtain ⟨e, he, -⟩ := Option.map_eq_some_iff.mp h
      exact inNumber_of_exponent? he

end Numeral

namespace Json

open Scanner (endsWord)

/-! ## Words -/

/-- A tree of one word. -/
inductive Word : Json → Prop
  | null : Word .null
  | bool (b : Bool) : Word (.bool b)
  | int (i : Int) : Word (.int i)
  | float {x : Binary64} (hfinite : x.isFinite = true) : Word (.float x)

/-- The text of an integer consists of characters of numbers. -/
theorem inNumber_of_mem_ofInt (i : Int) : ∀ c ∈ Decimal.ofInt i, InNumber c := by
  intro c hc
  rcases Decimal.mem_ofInt hc with rfl | hdigit
  · decide
  · exact Or.inl hdigit

/-- Numbers of trees are written as numerals. -/
theorem json_writesNumerals : NumberLayout.json.WritesNumerals :=
  Or.inr rfl

/-- The text of a finite number consists of characters of numbers. -/
theorem inNumber_of_mem_text {x : Binary64} (hfinite : x.isFinite = true) :
    ∀ c ∈ NumberLayout.json.text x, InNumber c := by
  obtain ⟨n, hn, -⟩ := Binary64.exists_read?_text json_writesNumerals hfinite
  exact Numeral.inNumber_of_read? hn

/-- A floating point number has a point or an exponent. -/
theorem exists_mark_mem_text {x : Binary64} (hfinite : x.isFinite = true) :
    ∃ c ∈ NumberLayout.json.text x, c ∈ ['.', 'e'] := by
  have hend : NumberLayout.json.wholeEnd = ['.', '0'] := rfl
  have hpositional : ∀ d, '.' ∈ NumberLayout.json.positionalText d := by
    intro d
    unfold NumberLayout.positionalText
    split
    · simp
    · split <;> simp [hend]
  have hexponent : ∀ d, 'e' ∈ NumberLayout.exponentText d := by
    intro d
    simp [NumberLayout.exponentText]
  have hsize : ∃ c ∈ x.sizeText NumberLayout.json, c ∈ ['.', 'e'] := by
    unfold Binary64.sizeText
    split
    · exact ⟨'.', by simp [hend]⟩
    · split
      · exact ⟨'.', hpositional _, by decide⟩
      · exact ⟨'e', hexponent _, by decide⟩
  obtain ⟨c, hc, hmark⟩ := hsize
  refine ⟨c, ?_, hmark⟩
  rw [Binary64.text_eq _ hfinite]
  split
  · exact List.mem_cons_of_mem _ hc
  · exact hc

theorem Word.text_ne_nil {j : Json} (h : Word j) : j.text ≠ [] := by
  cases h with
  | null => decide
  | bool b => cases b <;> decide
  | int i =>
      intro hnil
      have hread := Decimal.int?_ofInt i
      rw [show Decimal.ofInt i = [] from hnil] at hread
      cases hread
  | float hfinite =>
      obtain ⟨c, hc, -⟩ := exists_mark_mem_text hfinite
      exact List.ne_nil_of_mem hc

/-- A floating point number is no integer. -/
theorem ofInt_ne_text (i : Int) {x : Binary64} (hfinite : x.isFinite = true) :
    Decimal.ofInt i ≠ NumberLayout.json.text x := by
  intro h
  obtain ⟨c, hc, hmark⟩ := exists_mark_mem_text hfinite
  rw [← h] at hc
  rcases Decimal.mem_ofInt hc with rfl | hdigit
  · exact absurd hmark (by decide)
  · simp only [List.mem_cons, List.not_mem_nil, or_false] at hmark
    rcases hmark with rfl | rfl <;> exact absurd hdigit (by decide)

/-- A word does not end before its end. -/
theorem Word.not_endsWord {j : Json} (h : Word j) : ∀ c ∈ j.text, endsWord c = false := by
  have hname : ∀ {w : List Char}, w.any endsWord = false → ∀ c ∈ w, endsWord c = false :=
    fun hw c hc => Bool.eq_false_iff.mpr (List.any_eq_false.mp hw c hc)
  cases h with
  | null => exact hname rfl
  | bool b => cases b <;> exact hname rfl
  | int i => exact fun c hc => (inNumber_of_mem_ofInt i c hc).not_endsWord
  | float hfinite => exact fun c hc => (inNumber_of_mem_text hfinite c hc).not_endsWord

theorem ne_of_inNumber {name number : List Char} (hname : ∃ c ∈ name, ¬ InNumber c)
    (hnumber : ∀ c ∈ number, InNumber c) : name ≠ number := by
  intro h
  obtain ⟨c, hc, hnot⟩ := hname
  exact hnot (hnumber c (h ▸ hc))

/-- **Different words have different texts.** -/
theorem Word.text_injective {j k : Json} (hj : Word j) (hk : Word k) (h : j.text = k.text) :
    j = k := by
  have hnull : ∃ c ∈ Json.null.text, ¬ InNumber c := ⟨'n', by decide⟩
  have hbool : ∀ b, ∃ c ∈ (Json.bool b).text, ¬ InNumber c := by
    intro b
    cases b
    · exact ⟨'f', by decide⟩
    · exact ⟨'t', by decide⟩
  cases hj with
  | null =>
      cases hk with
      | null => rfl
      | bool b => cases b <;> exact absurd h (by decide)
      | int i => exact (ne_of_inNumber hnull (inNumber_of_mem_ofInt i) h).elim
      | float hy => exact (ne_of_inNumber hnull (inNumber_of_mem_text hy) h).elim
  | bool b =>
      cases hk with
      | null => cases b <;> exact absurd h (by decide)
      | bool b' =>
          cases b <;> cases b' <;> first | rfl | exact absurd h (by decide)
      | int i => exact (ne_of_inNumber (hbool b) (inNumber_of_mem_ofInt i) h).elim
      | float hy => exact (ne_of_inNumber (hbool b) (inNumber_of_mem_text hy) h).elim
  | int i =>
      cases hk with
      | null => exact (ne_of_inNumber hnull (inNumber_of_mem_ofInt i) h.symm).elim
      | bool b => exact (ne_of_inNumber (hbool b) (inNumber_of_mem_ofInt i) h.symm).elim
      | int i' =>
          have hread := Decimal.int?_ofInt i
          rw [show Decimal.ofInt i = Decimal.ofInt i' from h, Decimal.int?_ofInt] at hread
          rw [Option.some.inj hread]
      | float hy => exact (ofInt_ne_text i hy h).elim
  | float hx =>
      cases hk with
      | null => exact (ne_of_inNumber hnull (inNumber_of_mem_text hx) h.symm).elim
      | bool b => exact (ne_of_inNumber (hbool b) (inNumber_of_mem_text hx) h.symm).elim
      | int i => exact (ofInt_ne_text i hx h.symm).elim
      | float hy =>
          exact congrArg Json.float (NumberLayout.text_injective json_writesNumerals hx hy h)

/-! ## Texts -/

/-- An escape begins with another character than the closing quote. -/
theorem exists_escapeOne_cons (c : Char) : ∃ d ds, escapeOne c = d :: ds ∧ d ≠ '"' := by
  unfold escapeOne
  by_cases hquote : c = '"'
  · exact ⟨_, _, if_pos hquote, by decide⟩
  rw [if_neg hquote]
  by_cases hbackslash : c = '\\'
  · exact ⟨_, _, if_pos hbackslash, by decide⟩
  rw [if_neg hbackslash]
  by_cases hcontrol : c.toNat < 0x20
  · rw [if_pos hcontrol]
    repeat' split
    all_goals exact ⟨_, _, rfl, by decide⟩
  · exact ⟨_, _, if_neg hcontrol, hquote⟩

/-- A character whose escape begins with that of another is the other. -/
theorem eq_of_escapeOne_append {c d : Char} {rest : List Char}
    (h : escapeOne d = escapeOne c ++ rest) : c = d := by
  have hread := textUnits?_escapeOne d []
  rw [List.append_nil, h, textUnits?_escapeOne] at hread
  obtain ⟨units, -, hunits⟩ := Option.map_eq_some_iff.mp hread
  exact TextUnit.char.inj (List.cons.inj hunits).1

/-- **Of two texts that begin with an escaped character the characters are the same.** -/
theorem escapeOne_unique {c d : Char} {r s : List Char}
    (h : escapeOne c ++ r = escapeOne d ++ s) : c = d ∧ r = s := by
  have hsame : c = d := by
    rcases List.append_eq_append_iff.mp h with ⟨rest, hd, -⟩ | ⟨rest, hc, -⟩
    · exact eq_of_escapeOne_append hd
    · exact (eq_of_escapeOne_append hc).symm
  subst hsame
  exact ⟨rfl, List.append_cancel_left h⟩

/-- A text ends at its first quote that is not escaped. -/
theorem escaped_unique {cs ds r s : List Char}
    (h : cs.flatMap escapeOne ++ '"' :: r = ds.flatMap escapeOne ++ '"' :: s) :
    cs = ds ∧ r = s := by
  induction cs generalizing ds with
  | nil =>
      cases ds with
      | nil => exact ⟨rfl, (List.cons.inj h).2⟩
      | cons d ds =>
          obtain ⟨e, es, hcons, hne⟩ := exists_escapeOne_cons d
          rw [List.flatMap_cons, hcons] at h
          exact (hne (List.cons.inj h).1.symm).elim
  | cons c cs ih =>
      cases ds with
      | nil =>
          obtain ⟨e, es, hcons, hne⟩ := exists_escapeOne_cons c
          rw [List.flatMap_cons, hcons] at h
          exact (hne (List.cons.inj h).1).elim
      | cons d ds =>
          rw [List.flatMap_cons, List.flatMap_cons, List.append_assoc, List.append_assoc] at h
          obtain ⟨rfl, hrest⟩ := escapeOne_unique h
          obtain ⟨rfl, hafter⟩ := ih hrest
          exact ⟨rfl, hafter⟩

/-- **A text in quotes ends at its closing quote**, so that it is told from what follows it. -/
theorem strText_unique {a b : String} {r s : List Char} (h : strText a ++ r = strText b ++ s) :
    a = b ∧ r = s := by
  unfold strText at h
  simp only [List.cons_append, List.append_assoc, List.nil_append, List.cons.injEq, true_and] at h
  obtain ⟨hchars, hrest⟩ := escaped_unique h
  exact ⟨String.toList_inj.mp hchars, hrest⟩

/-! ## Lists -/

/-- What can follow a tree: nothing, or a character that ends a word. -/
def Follows (r : List Char) : Prop :=
  ∀ c, r.head? = some c → endsWord c = true

/-- A character that ends a word can follow a tree. -/
theorem follows_cons {c : Char} (hc : endsWord c = true) (r : List Char) : Follows (c :: r) := by
  intro d hd
  rwa [← Option.some.inj hd]

section Lists

variable {α : Type} (one : α → List Char) (closing : Char)

/-- What follows the first item of a list, up to what follows the list. -/
def afterItem (r : List Char) : List α → List Char
  | [] => closing :: r
  | a :: as => ',' :: ([','].intercalate ((a :: as).map one) ++ closing :: r)

/-- A list is its first item and what follows that. -/
theorem intercalate_append (a : α) (as : List α) (r : List Char) :
    [','].intercalate ((a :: as).map one) ++ closing :: r =
      one a ++ afterItem one closing r as := by
  cases as with
  | nil => simp [afterItem]
  | cons b bs => simp [afterItem, List.intercalate_cons_cons]

/-- What follows an item can follow a tree. -/
theorem follows_afterItem (hclosing : endsWord closing = true) (r : List Char) (as : List α) :
    Follows (afterItem one closing r as) := by
  cases as with
  | nil => exact follows_cons hclosing _
  | cons a as => exact follows_cons (by decide) _

/-- **A list ends at the mark that closes it**, if each of its items is told from what follows it and
does not begin with that mark. -/
theorem intercalate_unique (hclosing : endsWord closing = true) (hcomma : closing ≠ ',')
    {as bs : List α} (hfirst : ∀ a ∈ as ++ bs, ∃ c cs, one a = c :: cs ∧ c ≠ closing)
    (hone : ∀ a ∈ as, ∀ b ∈ bs, ∀ r s, Follows r → Follows s → one a ++ r = one b ++ s →
      a = b ∧ r = s)
    {r s : List Char} (h : [','].intercalate (as.map one) ++ closing :: r =
      [','].intercalate (bs.map one) ++ closing :: s) : as = bs ∧ r = s := by
  induction as generalizing bs with
  | nil =>
      cases bs with
      | nil => exact ⟨rfl, (List.cons.inj h).2⟩
      | cons b bs =>
          obtain ⟨c, cs, hcons, hne⟩ := hfirst b (by simp)
          rw [intercalate_append, hcons] at h
          exact (hne (List.cons.inj h).1.symm).elim
  | cons a as ih =>
      cases bs with
      | nil =>
          obtain ⟨c, cs, hcons, hne⟩ := hfirst a (by simp)
          rw [intercalate_append, hcons] at h
          exact (hne (List.cons.inj h).1).elim
      | cons b bs =>
          rw [intercalate_append, intercalate_append] at h
          obtain ⟨rfl, hafter⟩ := hone a List.mem_cons_self b List.mem_cons_self _ _
            (follows_afterItem one closing hclosing r as)
            (follows_afterItem one closing hclosing s bs) h
          cases as with
          | nil =>
              cases bs with
              | nil => exact ⟨rfl, (List.cons.inj hafter).2⟩
              | cons b bs => exact (hcomma (List.cons.inj hafter).1).elim
          | cons a' as =>
              cases bs with
              | nil => exact (hcomma (List.cons.inj hafter).1.symm).elim
              | cons b bs =>
                  obtain ⟨hrest, hend⟩ := @ih (b :: bs)
                    (fun c hc => hfirst c (by simp at hc ⊢; tauto))
                    (fun a ha b hb => hone a (List.mem_cons_of_mem _ ha) b
                      (List.mem_cons_of_mem _ hb))
                    (List.cons.inj hafter).2
                  exact ⟨by rw [hrest], hend⟩

end Lists

/-! ## Trees -/

/-- A tree that its text tells: each of its parts has a value, and its floating point numbers are
finite. -/
inductive Definite : Json → Prop
  | word {j : Json} (h : Word j) : Definite j
  | str (s : String) : Definite (.str s)
  | array {items : List Json} (hitems : ∀ j ∈ items, Definite j) : Definite (.array items)
  | object {members : List (String × Json)} (hmembers : ∀ m ∈ members, Definite m.2) :
      Definite (.object members)

theorem itemsReadable_eq (items : List Json) : itemsReadable items = items.all isReadable := by
  induction items with
  | nil => rfl
  | cons j js ih => rw [itemsReadable, ih, List.all_cons]

theorem membersReadable_eq (members : List (String × Json)) :
    membersReadable members = members.all fun m => m.2.isReadable := by
  induction members with
  | nil => rfl
  | cons m ms ih => rw [membersReadable, ih, List.all_cons]

/-- Every part of such a tree has a value, so that the tree has a text. -/
theorem Definite.isReadable {j : Json} (h : Definite j) : j.isReadable = true := by
  induction h with
  | word h => cases h <;> rfl
  | str s => rfl
  | array _ ih =>
      rw [Json.isReadable, itemsReadable_eq, List.all_eq_true]
      exact ih
  | object _ ih =>
      rw [Json.isReadable, membersReadable_eq, List.all_eq_true]
      exact ih

/-- A word does not begin with a mark. -/
theorem Word.text_append_ne {j : Json} (h : Word j) {c : Char} (hc : endsWord c = true)
    (r rest : List Char) : j.text ++ r ≠ c :: rest := by
  intro heq
  obtain ⟨d, ds, hcons⟩ := List.exists_cons_of_ne_nil h.text_ne_nil
  have hword := h.not_endsWord d (by rw [hcons]; exact List.mem_cons_self)
  rw [hcons, List.cons_append, List.cons.injEq] at heq
  rw [heq.1, hc] at hword
  cases hword

theorem Definite.exists_text_cons {j : Json} (h : Definite j) :
    ∃ c cs, j.text = c :: cs ∧ c ≠ ']' := by
  cases h with
  | word h =>
      obtain ⟨c, cs, hcons⟩ := List.exists_cons_of_ne_nil h.text_ne_nil
      refine ⟨c, cs, hcons, ?_⟩
      rintro rfl
      exact h.text_append_ne (c := ']') (by decide) [] cs (by rw [List.append_nil, hcons])
  | str s => exact ⟨_, _, rfl, by decide⟩
  | array _ => exact ⟨_, _, rfl, by decide⟩
  | object _ => exact ⟨_, _, rfl, by decide⟩

/-- **A word ends where it can be followed**, so that it is told from what follows it. -/
theorem Word.unique {j k : Json} (hj : Word j) (hk : Word k) {r s : List Char} (hr : Follows r)
    (hs : Follows s) (h : j.text ++ r = k.text ++ s) : j = k ∧ r = s := by
  have hrun : ∀ {l : Json}, Word l → ∀ c ∈ l.text, (!endsWord c) = true := by
    intro l hl c hc
    rw [hl.not_endsWord c hc]
    rfl
  have hend : ∀ {t : List Char}, Follows t → ∀ c, t.head? = some c → (!endsWord c) = false := by
    intro t ht c hc
    rw [ht c hc]
    rfl
  obtain ⟨htext, hrest⟩ := Text.run_unique (p := fun c => !endsWord c) (hrun hj) (hend hr) (hrun hk)
    (hend hs) h
  exact ⟨hj.text_injective hk htext, hrest⟩

/-- The text of an array is a list between brackets. -/
theorem array_append (items : List Json) (r : List Char) :
    (Json.array items).text ++ r = '[' :: ([','].intercalate (items.map text) ++ ']' :: r) := by
  simp [text, itemsText_eq]

/-- The text of an object is a list of members between braces. -/
theorem object_append (members : List (String × Json)) (r : List Char) :
    (Json.object members).text ++ r =
      '\x7b' :: ([','].intercalate (members.map fun m => strText m.1 ++ ':' :: m.2.text) ++
        '\x7d' :: r) := by
  simp [text, membersText_eq]

/-- **A tree is told from what follows it.** -/
theorem Definite.unique {j k : Json} (hj : Definite j) (hk : Definite k) {r s : List Char}
    (hr : Follows r) (hs : Follows s) (h : j.text ++ r = k.text ++ s) : j = k ∧ r = s := by
  induction hj generalizing k r s with
  | word hj =>
      cases hk with
      | word hk => exact hj.unique hk hr hs h
      | str b => exact (hj.text_append_ne (by decide) _ _ h).elim
      | array _ => exact (hj.text_append_ne (by decide) _ _ h).elim
      | object _ => exact (hj.text_append_ne (by decide) _ _ h).elim
  | str a =>
      cases hk with
      | word hk => exact (hk.text_append_ne (by decide) _ _ h.symm).elim
      | str b =>
          obtain ⟨rfl, hrest⟩ := strText_unique h
          exact ⟨rfl, hrest⟩
      | array _ => cases h
      | object _ => cases h
  | @array items hitems ih =>
      cases hk with
      | word hk => exact (hk.text_append_ne (by decide) _ _ h.symm).elim
      | str b => cases h
      | @array items' hitems' =>
          rw [array_append, array_append] at h
          obtain ⟨rfl, hrest⟩ := intercalate_unique text ']' (by decide) (by decide)
            (fun a ha => (List.mem_append.mp ha).elim (fun ha => (hitems a ha).exists_text_cons)
              fun ha => (hitems' a ha).exists_text_cons)
            (fun a ha b hb r s hr hs => ih a ha (hitems' b hb) hr hs)
            (List.cons.inj h).2
          exact ⟨rfl, hrest⟩
      | object _ => cases h
  | @object members hmembers ih =>
      cases hk with
      | word hk => exact (hk.text_append_ne (by decide) _ _ h.symm).elim
      | str b => cases h
      | array _ => cases h
      | @object members' hmembers' =>
          rw [object_append, object_append] at h
          obtain ⟨rfl, hrest⟩ := intercalate_unique
            (fun m : String × Json => strText m.1 ++ ':' :: m.2.text) '\x7d' (by decide) (by decide)
            (fun m _ => ⟨_, _, rfl, by decide⟩)
            (fun m hm n hn r s hr hs hmembers => by
              rw [List.append_assoc, List.append_assoc] at hmembers
              obtain ⟨hkey, hvalue⟩ := strText_unique hmembers
              obtain ⟨hsame, hend⟩ := ih m hm (hmembers' n hn) hr hs (List.cons.inj hvalue).2
              exact ⟨Prod.ext hkey hsame, hend⟩)
            (List.cons.inj h).2
          exact ⟨rfl, hrest⟩

/-- **Different trees have different texts.** -/
theorem Definite.eq_of_compact {j k : Json} (hj : Definite j) (hk : Definite k)
    (h : j.compact = k.compact) : j = k := by
  have htext : j.text ++ [] = k.text ++ [] := by
    rw [List.append_nil, List.append_nil]
    exact String.ofList_injective h
  have hend : Follows [] := fun c hc => by cases hc
  exact (hj.unique hk hend hend htext).1

end Json

end ListingQuery
