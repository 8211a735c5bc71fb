import ListingQuery.Proofs.Filter.RereadCondition
import ListingQuery.Proofs.Json.Scalars
import ListingQuery.Proofs.Paging
import ListingQuery.Query.Options

/-!
# Items of the attachments option

An item of the attachments option is a key and a value with a colon between: a cap, a resolution or a
selector.  Reading an item into options is reading it for itself and then adding what it says, which
can fail only for a second resolution and for a selector of another kind.

A comma ends an item unless a double quote is open.  An item can have double quotes around a title
only, so that none is open where it ends.

* `AttachmentItem` is what an item says, `AttachmentItem.Reads` that a key and a value say it, and
  `AttachmentOptions.add` what becomes of the options;
* `AttachmentOptions.readItem_eq_ok_iff` takes the reading of an item apart;
* `AttachmentItem.Reads.closed` says that no quote is open behind an item;
* `AttachmentOptions.splitItems_intercalate` cuts a list at the commas between its items.
-/

namespace ListingQuery

/-! ## What an item says -/

/-- What an item of the attachments option says. -/
inductive AttachmentItem where
  | bytes (cap : UInt64)
  | count (category : Category) (cap : UInt32)
  | scaling (s : Scaling)
  | select (s : Selector)
deriving DecidableEq, Repr

namespace AttachmentItem

/-- The key of an item. -/
def key : AttachmentItem → List Char
  | bytes _ => "bytes".toList
  | count c _ => c.optionKey.toList
  | scaling _ => "scaling".toList
  | select _ => "select".toList

/-- A key and a value, with blanks around them or not, say an item. -/
inductive Reads (name value : List Char) : AttachmentItem → Prop
  | bytes {n : UInt64} (hname : Text.trim name = "bytes".toList)
      (hvalue : AttachmentOptions.readLimit value = .ok n) : Reads name value (.bytes n)
  | count {c : Category} {n : UInt64} {cap : UInt32} (hname : Text.trim name = c.optionKey.toList)
      (hvalue : AttachmentOptions.readLimit value = .ok n)
      (hcap : Decimal.toUInt32? n.toNat = some cap) : Reads name value (.count c cap)
  | scaling {s : Scaling} (hname : Text.trim name = "scaling".toList)
      (hvalue : Scaling.read value = .ok s) : Reads name value (.scaling s)
  | select {s : Selector} (hname : Text.trim name = "select".toList)
      (hvalue : Selector.read value = .ok s) : Reads name value (.select s)

/-- All keys. -/
def keys : List (List Char) :=
  ["bytes".toList, "scaling".toList, "select".toList] ++ Category.all.map (·.optionKey.toList)

/-- The key of an item is one of the keys. -/
theorem key_mem_keys (i : AttachmentItem) : i.key ∈ keys := by
  rcases i with - | ⟨c, -⟩ | - | -
  · exact (by decide : "bytes".toList ∈ keys)
  · exact (by cases c <;> decide : c.optionKey.toList ∈ keys)
  · exact (by decide : "scaling".toList ∈ keys)
  · exact (by decide : "select".toList ∈ keys)

/-- A key has no blank and none of the marks that a list is cut at. -/
theorem plain_of_mem_key {i : AttachmentItem} {c : Char} (hc : c ∈ i.key) :
    Text.isBlank c = false ∧ c ≠ '"' ∧ c ≠ ':' ∧ c ≠ ',' :=
  have hplain : keys.all (fun key => key.all fun c =>
      !Text.isBlank c && !(['"', ':', ','].contains c)) = true := by decide
  by simpa using List.all_eq_true.mp (List.all_eq_true.mp hplain _ i.key_mem_keys) c hc

/-- What stands in front of the colon is the key, with blanks around it or not. -/
theorem Reads.trim_name {name value : List Char} {i : AttachmentItem} (h : Reads name value i) :
    Text.trim name = i.key := by
  cases h <;> assumption

end AttachmentItem

/-- A text is the key of a category exactly if it is that category's own. -/
theorem Category.ofOptionKey?_eq_some_iff {key : List Char} {c : Category} :
    Category.ofOptionKey? key = some c ↔ key = c.optionKey.toList := by
  constructor
  · intro h
    have hfound := List.find?_some (p := fun c : Category => c.optionKey.toList == key) h
    exact (beq_iff_eq.mp hfound).symm
  · rintro rfl
    cases c <;> decide

namespace AttachmentOptions

/-- The options with what an item says added. -/
def add (o : AttachmentOptions) : AttachmentItem → Except QueryError AttachmentOptions
  | .bytes n => .ok { o with budget := { o.budget with byteCap := some n } }
  | .count c cap => .ok { o with budget := o.budget.withCountCap c cap }
  | .scaling s => if o.scaling.isSome then .error .scalingRepeated else .ok { o with scaling := some s }
  | .select s => (o.selection.push s).map fun t => { o with selection := t }

/-- A count is read exactly if its key is that of a category and its value a limit of 32 bits. -/
theorem readCount_eq_ok_iff {o o' : AttachmentOptions} {item key value : List Char} :
    readCount o item key value = .ok o' ↔ ∃ c n cap, key = c.optionKey.toList ∧
      readLimit value = .ok n ∧ Decimal.toUInt32? n.toNat = some cap ∧
      o.add (.count c cap) = .ok o' := by
  unfold readCount
  simp only [← Category.ofOptionKey?_eq_some_iff]
  cases hc : Category.ofOptionKey? key with
  | none => simp
  | some c =>
      cases hvalue : readLimit value with
      | error e => simp
      | ok n => cases hcap : Decimal.toUInt32? n.toNat <;> simp [hcap, add]

/-- **An item is read for itself, and what it says is added.** -/
theorem readItem_eq_ok_iff {o o' : AttachmentOptions} {item : List Char} :
    readItem o item = .ok o' ↔ ∃ name value i, Text.cut? (· == ':') item = some (name, value) ∧
      AttachmentItem.Reads name value i ∧ o.add i = .ok o' := by
  cases hcut : Text.cut? (· == ':') item with
  | none => simp [readItem, hcut]
  | some parts =>
      obtain ⟨name, value⟩ := parts
      simp only [readItem, hcut, Option.some.injEq, Prod.mk.injEq]
      constructor
      · intro h
        refine ⟨name, value, ?_⟩
        split at h
        · rename_i hname
          cases hvalue : readLimit value with
          | error e => simp [hvalue, Except.map] at h
          | ok n => exact ⟨.bytes n, ⟨rfl, rfl⟩, .bytes hname hvalue, by rw [hvalue] at h; exact h⟩
        · split at h
          · rename_i hname
            split at h
            · cases h
            · rename_i hfree
              cases hvalue : Scaling.read value with
              | error e => simp [hvalue, Except.map] at h
              | ok s =>
                  refine ⟨.scaling s, ⟨rfl, rfl⟩, .scaling hname hvalue, ?_⟩
                  rw [hvalue] at h
                  rw [add, if_neg hfree]
                  exact h
          · split at h
            · rename_i hname
              cases hvalue : Selector.read value with
              | error e => simp [hvalue] at h
              | ok s => exact ⟨.select s, ⟨rfl, rfl⟩, .select hname hvalue, by rw [hvalue] at h; exact h⟩
            · obtain ⟨c, n, cap, hname, hvalue, hcap, hadd⟩ := readCount_eq_ok_iff.mp h
              exact ⟨.count c cap, ⟨rfl, rfl⟩, .count hname hvalue hcap, hadd⟩
      · rintro ⟨name, value, i, ⟨rfl, rfl⟩, hreads, hadd⟩
        cases hreads with
        | bytes hname hvalue =>
            rw [if_pos hname, hvalue]
            exact hadd
        | scaling hname hvalue =>
            rw [if_neg (by rw [hname]; decide), if_pos hname, hvalue]
            exact hadd
        | select hname hvalue =>
            rw [if_neg (by rw [hname]; decide), if_neg (by rw [hname]; decide), if_pos hname, hvalue]
            exact hadd
        | @count c n cap hname hvalue hcap =>
            have hother : ∀ other ∈ ["bytes".toList, "scaling".toList, "select".toList],
                Text.trim name ≠ other := by
              rw [hname]
              cases c <;> decide
            rw [if_neg (hother _ (by simp)), if_neg (hother _ (by simp)), if_neg (hother _ (by simp))]
            exact readCount_eq_ok_iff.mpr ⟨c, n, cap, hname, hvalue, hcap, hadd⟩

end AttachmentOptions

/-! ## Quotes -/

/-- A selector that can stand between quotes: there is no quote in its title. -/
def Selector.IsQuotable : Selector → Prop
  | .title t => '"' ∉ t.toList
  | _ => True

instance (s : Selector) : Decidable s.IsQuotable :=
  match s with
  | .title t => inferInstanceAs (Decidable ('"' ∉ t.toList))
  | .index _ | .group _ => .isTrue trivial

/-- Is a quote open behind a text, when one was open before it or not? -/
def Text.isQuotedAfter (quoted : Bool) (cs : List Char) : Bool :=
  cs.foldl (fun q c => q != (c == '"')) quoted

namespace Text

/-- Whether a quote is open behind two texts is seen text by text. -/
theorem isQuotedAfter_append (quoted : Bool) (cs ds : List Char) :
    isQuotedAfter quoted (cs ++ ds) = isQuotedAfter (isQuotedAfter quoted cs) ds :=
  List.foldl_append

/-- A text without quotes opens and closes none. -/
theorem isQuotedAfter_of_not_mem (quoted : Bool) {cs : List Char} (h : '"' ∉ cs) :
    isQuotedAfter quoted cs = quoted := by
  induction cs with
  | nil => rfl
  | cons c cs ih =>
      obtain ⟨hc, hcs⟩ := not_or.mp (mt List.mem_cons.mpr h)
      have hmark : (c == '"') = false := beq_eq_false_iff_ne.mpr (Ne.symm hc)
      change isQuotedAfter (quoted != (c == '"')) cs = quoted
      rw [hmark, Bool.bne_false]
      exact ih hcs

/-- What is no blank is not among blanks. -/
theorem Blanks.not_mem {gap : List Char} (hgap : Blanks gap) {c : Char} (hc : isBlank c = false) :
    c ∉ gap := fun hmem => by
  rw [hgap c hmem] at hc
  cases hc

/-- Trimming takes nothing but blanks off. -/
theorem not_mem_of_trim {c : Char} (hc : isBlank c = false) {cs : List Char} (h : c ∉ trim cs) :
    c ∉ cs := by
  obtain ⟨front, back, hfront, hback, hcs⟩ := exists_trim cs
  rw [hcs, List.append_assoc, List.mem_append, List.mem_append]
  rintro (hmem | hmem | hmem)
  · exact hfront.not_mem hc hmem
  · exact h hmem
  · exact hback.not_mem hc hmem

/-- Blanks around a text open and close no quote. -/
theorem isQuotedAfter_trim (quoted : Bool) (cs : List Char) :
    isQuotedAfter quoted cs = isQuotedAfter quoted (trim cs) := by
  obtain ⟨front, back, hfront, hback, hcs⟩ := exists_trim cs
  have hquote : isBlank '"' = false := by decide
  calc isQuotedAfter quoted cs = isQuotedAfter quoted (front ++ trim cs ++ back) :=
        congrArg (isQuotedAfter quoted) hcs
    _ = isQuotedAfter quoted (trim cs) := by
        rw [isQuotedAfter_append, isQuotedAfter_append,
          isQuotedAfter_of_not_mem _ (hback.not_mem hquote),
          isQuotedAfter_of_not_mem _ (hfront.not_mem hquote)]

/-- A text is cut at its first separator. -/
theorem exists_of_cut? {separates : Char → Bool} {cs front back : List Char}
    (h : cut? separates cs = some (front, back)) :
    (∀ c ∈ front, separates c = false) ∧ ∃ c, separates c = true ∧ cs = front ++ c :: back := by
  induction cs generalizing front with
  | nil => cases h
  | cons d cs ih =>
      unfold cut? at h
      split at h
      · rename_i hd
        cases h
        exact ⟨by simp, d, hd, rfl⟩
      · rename_i hd
        obtain ⟨parts, hparts, hwhole⟩ := Option.map_eq_some_iff.mp h
        cases hwhole
        obtain ⟨hfront, c, hc, hcs⟩ := ih hparts
        exact ⟨List.forall_mem_cons.mpr ⟨by simpa using hd, hfront⟩, c, hc, by rw [hcs]; rfl⟩

end Text

namespace AttachmentItem

theorem not_mem_of_plain? {cs : List Char} {n : Nat} (h : Decimal.plain? cs = some n) : '"' ∉ cs :=
  fun hmem => absurd (Json.inNumber_of_plain? h '"' hmem) (by decide)

theorem not_mem_of_nat? {cs : List Char} {n : Nat} (h : Decimal.nat? cs = some n) : '"' ∉ cs := by
  unfold Decimal.nat? at h
  split at h
  · exact fun hmem => (List.mem_cons.mp hmem).elim (by decide) (not_mem_of_plain? h)
  · exact not_mem_of_plain? h

theorem not_mem_of_readLimit {cs : List Char} {n : UInt64}
    (h : AttachmentOptions.readLimit cs = .ok n) : '"' ∉ cs := by
  unfold AttachmentOptions.readLimit at h
  dsimp only at h
  split at h
  · rename_i hnumber
    obtain ⟨m, hm, -⟩ := Option.bind_eq_some_iff.mp hnumber
    exact Text.not_mem_of_trim (by decide) (not_mem_of_nat? hm)
  · cases h

theorem not_mem_of_side? {cs : List Char} {n : UInt32} (h : Scaling.side? cs = some n) :
    '"' ∉ cs := by
  obtain ⟨hnumber, -⟩ := Option.filter_eq_some_iff.mp h
  obtain ⟨m, hm, -⟩ := Option.bind_eq_some_iff.mp hnumber
  exact Text.not_mem_of_trim (by decide) (not_mem_of_nat? hm)

theorem not_mem_of_scaling {cs : List Char} {s : Scaling} (h : Scaling.read cs = .ok s) :
    '"' ∉ cs := by
  unfold Scaling.read at h
  dsimp only at h
  split at h
  · cases h
  · rename_i width height hcut
    obtain ⟨-, x, hx, htrim⟩ := Text.exists_of_cut? hcut
    split at h
    · rename_i hwidth hheight
      refine Text.not_mem_of_trim (by decide) ?_
      rw [htrim, List.mem_append, List.mem_cons]
      rintro (hmem | rfl | hmem)
      · exact not_mem_of_side? hwidth hmem
      · exact absurd hx (by decide)
      · exact not_mem_of_side? hheight hmem
    · cases h

/-- There is no quote in the name of a group, however it is spelled. -/
theorem not_mem_of_group {cs : List Char} {g : AttachmentGroup}
    (h : AttachmentGroup.read? cs = some g) : '"' ∉ cs := by
  have hname := List.find?_some (p := fun g : AttachmentGroup => g.name.toList == _) h
  refine Text.not_mem_of_trim (by decide) fun hmem => ?_
  have hquote : '"' ∈ g.name.toList := by
    rw [beq_iff_eq.mp hname]
    exact List.mem_map.mpr ⟨'"', hmem, by decide⟩
  exact absurd hquote (by cases g <;> decide)

/-- The two quotes of a title are all quotes of a selector. -/
theorem closed_of_selector {cs : List Char} {s : Selector} (h : Selector.read cs = .ok s)
    (htitle : s.IsQuotable) : Text.isQuotedAfter false cs = false := by
  rw [Text.isQuotedAfter_trim]
  unfold Selector.read at h
  dsimp only at h
  split at h
  · rename_i name hpercent
    rw [hpercent]
    split at h
    · rename_i hgroup
      refine Text.isQuotedAfter_of_not_mem false fun hmem => ?_
      exact (List.mem_cons.mp hmem).elim (by decide) (not_mem_of_group hgroup)
    · cases h
  · split at h
    · rename_i t hquotes
      cases Except.ok.inj h
      have hquote : '"' ∉ t := by simpa [Selector.IsQuotable] using htitle
      rw [Text.eq_of_between? hquotes]
      change Text.isQuotedAfter true (t ++ ['"']) = false
      rw [Text.isQuotedAfter_append, Text.isQuotedAfter_of_not_mem true hquote]
      rfl
    · split at h
      · rename_i hnumber
        obtain ⟨m, hm, -⟩ := Option.bind_eq_some_iff.mp hnumber
        exact Text.isQuotedAfter_of_not_mem false (not_mem_of_plain? hm)
      · cases h

/-- **No quote is open behind an item**, if there is none in its title. -/
theorem Reads.closed {name value : List Char} {i : AttachmentItem} (h : Reads name value i)
    (htitle : ∀ s, i = .select s → s.IsQuotable) :
    Text.isQuotedAfter false (name ++ ':' :: value) = false := by
  have hname : '"' ∉ name := by
    refine Text.not_mem_of_trim (by decide) ?_
    rw [h.trim_name]
    exact fun hmem => (plain_of_mem_key hmem).2.1 rfl
  rw [Text.isQuotedAfter_append, Text.isQuotedAfter_of_not_mem false hname]
  change Text.isQuotedAfter false value = false
  cases h with
  | bytes _ hvalue => exact Text.isQuotedAfter_of_not_mem false (not_mem_of_readLimit hvalue)
  | count _ hvalue _ => exact Text.isQuotedAfter_of_not_mem false (not_mem_of_readLimit hvalue)
  | scaling _ hvalue => exact Text.isQuotedAfter_of_not_mem false (not_mem_of_scaling hvalue)
  | select _ hvalue => exact closed_of_selector hvalue (htitle _ rfl)

end AttachmentItem

/-! ## Commas -/

/-- A text with commas only where a quote is open. -/
def Text.OnePiece (quoted : Bool) : List Char → Prop
  | [] => True
  | c :: cs => (c = ',' → quoted = true) ∧ OnePiece (quoted != (c == '"')) cs

instance Text.decidableOnePiece (quoted : Bool) : (cs : List Char) → Decidable (OnePiece quoted cs)
  | [] => .isTrue trivial
  | c :: cs =>
      letI := decidableOnePiece (quoted != (c == '"')) cs
      inferInstanceAs (Decidable ((c = ',' → quoted = true) ∧ OnePiece _ cs))

/-- Two texts are one piece if the second is so behind the quotes of the first. -/
theorem Text.onePiece_append {quoted : Bool} {cs ds : List Char} (hcs : OnePiece quoted cs)
    (hds : OnePiece (isQuotedAfter quoted cs) ds) : OnePiece quoted (cs ++ ds) := by
  induction cs generalizing quoted with
  | nil => exact hds
  | cons c cs ih => exact ⟨hcs.1, ih hcs.2 hds⟩

/-- A text without commas is one piece. -/
theorem Text.onePiece_of_not_mem {cs : List Char} (h : ',' ∉ cs) (quoted : Bool) :
    OnePiece quoted cs := by
  induction cs generalizing quoted with
  | nil => trivial
  | cons c cs ih =>
      obtain ⟨hc, hcs⟩ := not_or.mp (mt List.mem_cons.mpr h)
      exact ⟨fun hcomma => absurd hcomma.symm hc, ih hcs _⟩

/-- A quote that is open stays open to the next one. -/
theorem Text.onePiece_quoted {cs : List Char} (h : '"' ∉ cs) : OnePiece true cs := by
  induction cs with
  | nil => trivial
  | cons c cs ih =>
      obtain ⟨hc, hcs⟩ := not_or.mp (mt List.mem_cons.mpr h)
      have hmark : (c == '"') = false := beq_eq_false_iff_ne.mpr (Ne.symm hc)
      refine ⟨fun _ => rfl, ?_⟩
      rw [hmark, Bool.bne_false]
      exact ih hcs

namespace AttachmentOptions

open Text (isQuotedAfter OnePiece)

/-- Cutting goes on behind a text in one piece. -/
theorem splitItems_append {quoted : Bool} {cs : List Char} (h : OnePiece quoted cs)
    (item rest : List Char) : splitItems quoted item (cs ++ rest) =
      splitItems (isQuotedAfter quoted cs) (cs.reverse ++ item) rest := by
  induction cs generalizing quoted item with
  | nil => rfl
  | cons c cs ih =>
      have hstep : splitItems quoted item (c :: cs ++ rest) =
          splitItems (quoted != (c == '"')) (c :: item) (cs ++ rest) := by
        rw [List.cons_append, splitItems]
        by_cases hquote : c = '"'
        · simp [hquote]
        · have hcomma : ¬ (c = ',' ∧ quoted = false) := by
            rintro ⟨hc, rfl⟩
            exact absurd (h.1 hc) (by decide)
          have hmark : (c == '"') = false := beq_eq_false_iff_ne.mpr hquote
          rw [if_neg hquote, if_neg hcomma, hmark, Bool.bne_false]
      rw [hstep, ih h.2]
      simp [isQuotedAfter]

/-- A text in one piece is not cut. -/
theorem splitItems_of_onePiece {quoted : Bool} {cs : List Char} (h : OnePiece quoted cs) :
    splitItems quoted [] cs = [cs] := by
  have hsplit := splitItems_append h [] []
  rw [List.append_nil] at hsplit
  simpa [splitItems] using hsplit

/-- **A list is cut where its items end.** -/
theorem splitItems_intercalate {texts : List (List Char)} (hne : texts ≠ [])
    (h : ∀ text ∈ texts, OnePiece false text ∧ isQuotedAfter false text = false) :
    splitItems false [] (List.intercalate [','] texts) = texts := by
  induction texts with
  | nil => exact absurd rfl hne
  | cons text texts ih =>
      obtain ⟨hpiece, hclosed⟩ := h text List.mem_cons_self
      cases texts with
      | nil => simpa using splitItems_of_onePiece hpiece
      | cons next texts =>
          have hrest := ih (by simp) fun t ht => h t (List.mem_cons_of_mem _ ht)
          rw [List.intercalate_cons_cons, List.append_assoc, splitItems_append hpiece, hclosed]
          simp [splitItems, hrest]

end AttachmentOptions

end ListingQuery
