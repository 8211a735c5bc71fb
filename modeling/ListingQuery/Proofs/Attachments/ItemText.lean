import ListingQuery.Proofs.Attachments.Items

/-!
# Items that can stand in a list

An item can stand in a list if it can be read for itself, its commas stand between quotes, and there
is no quote in its title.  What it says is then all that its options hold.

* `ItemText` is such an item, `AttachmentItem.options` what an item says, as options;
* `ItemText.eq_unset_or_reads` takes an item apart, `ItemText.closed` says that no quote is open
  behind it;
* `ItemText.exists_of_title` finds a title in the item as it is, character by character;
* `AttachmentItem.exists_itemText` writes every item, with any title that has no quote in it.
-/

namespace ListingQuery

/-! ## What an item says, as options -/

namespace Selection

/-- The selectors that add up to a selection. -/
def selectors : Selection → List Selector
  | .all => []
  | .indexes ns => ns.map .index
  | .titles ts => ts.map .title
  | .groups gs => gs.map .group

/-- The selection of one selector. -/
def ofSelector : Selector → Selection
  | .index n => .indexes [n]
  | .title t => .titles [t]
  | .group g => .groups [g]

@[simp] theorem selectors_ofSelector (s : Selector) : (ofSelector s).selectors = [s] := by
  cases s <;> rfl

end Selection

namespace AttachmentItem

/-- The options that say what an item says and nothing else. -/
def options : AttachmentItem → AttachmentOptions
  | .bytes n => { AttachmentOptions.unset with budget := .ofBytes (some n) }
  | .count c cap => { AttachmentOptions.unset with budget := Budget.unlimited.withCountCap c cap }
  | .scaling s => { AttachmentOptions.unset with scaling := some s }
  | .select s => { AttachmentOptions.unset with selection := .ofSelector s }

/-- An item added where nothing is set gives what the item says. -/
theorem unset_add (i : AttachmentItem) : AttachmentOptions.unset.add i = .ok i.options := by
  rcases i with - | - | - | s
  · rfl
  · rfl
  · rfl
  · cases s <;> rfl

end AttachmentItem

/-- A title that was read stood between quotes. -/
theorem Selector.trim_of_read_title {cs : List Char} {title : String}
    (h : Selector.read cs = .ok (.title title)) : Text.trim cs = '"' :: (title.toList ++ ['"']) := by
  unfold Selector.read at h
  dsimp only at h
  split at h
  · split at h <;> cases h
  · split at h
    · rename_i t hquotes
      cases Except.ok.inj h
      rw [Text.eq_of_between? hquotes, String.toList_ofList]
    · split at h <;> cases h

/-! ## Items of a list -/

/-- An item that can stand in a list: it can be read for itself, it is in one piece, and there is no
quote in its title. -/
structure ItemText where
  text : List Char
  options : AttachmentOptions
  read : AttachmentOptions.read (String.ofList text) = .ok options
  onePiece : Text.OnePiece false text
  quotable : ∀ s ∈ options.selection.selectors, s.IsQuotable

namespace ItemText

/-- The key of an item: what stands before its first colon, without the blanks around it. -/
def key (t : ItemText) : List Char :=
  ((Text.cut? (· == ':') (Text.trim t.text)).map fun parts => Text.trim parts.1).getD []

/-- One item alone is read as its options. -/
theorem readItems_text (t : ItemText) :
    AttachmentOptions.readItems .unset [t.text] = .ok t.options := by
  have hread := t.read
  rw [AttachmentOptions.read, String.toList_ofList,
    AttachmentOptions.splitItems_of_onePiece t.onePiece] at hread
  exact hread

/-- **An item says nothing or one thing.** -/
theorem eq_unset_or_reads (t : ItemText) :
    (Text.isAllBlank t.text = true ∧ t.options = .unset) ∨
      (Text.isAllBlank t.text = false ∧ ∃ name value i,
        Text.cut? (· == ':') (Text.trim t.text) = some (name, value) ∧
        AttachmentItem.Reads name value i ∧ t.options = i.options) := by
  have hread := t.readItems_text
  cases hblank : Text.isAllBlank t.text with
  | true =>
      rw [AttachmentOptions.readItems, if_pos hblank] at hread
      exact Or.inl ⟨rfl, (Except.ok.inj hread).symm⟩
  | false =>
      refine Or.inr ⟨rfl, ?_⟩
      rw [AttachmentOptions.readItems, if_neg (by simp [hblank])] at hread
      cases hitem : AttachmentOptions.readItem .unset (Text.trim t.text) with
      | error e =>
          rw [hitem] at hread
          cases hread
      | ok o =>
          rw [hitem] at hread
          obtain ⟨name, value, i, hcut, hreads, hadd⟩ :=
            AttachmentOptions.readItem_eq_ok_iff.mp hitem
          rw [AttachmentItem.unset_add] at hadd
          refine ⟨name, value, i, hcut, hreads, ?_⟩
          rw [Except.ok.inj hadd]
          exact (Except.ok.inj hread).symm

/-- The key of an item tells what the item can say. -/
theorem eq_unset_or_item (t : ItemText) :
    t.options = .unset ∨ ∃ i : AttachmentItem, t.options = i.options ∧ t.key = i.key := by
  rcases t.eq_unset_or_reads with ⟨-, hunset⟩ | ⟨-, name, value, i, hcut, hreads, hoptions⟩
  · exact Or.inl hunset
  · refine Or.inr ⟨i, hoptions, ?_⟩
    rw [key, hcut]
    exact hreads.trim_name

/-- No quote is open behind an item. -/
theorem closed (t : ItemText) : Text.isQuotedAfter false t.text = false := by
  rcases t.eq_unset_or_reads with ⟨hblank, -⟩ | ⟨-, name, value, i, hcut, hreads, hoptions⟩
  · refine Text.isQuotedAfter_of_not_mem false fun hmem => ?_
    exact absurd (List.all_eq_true.mp hblank _ hmem) (by decide)
  · obtain ⟨-, c, hcolon, htext⟩ := Text.exists_of_cut? hcut
    rw [Text.isQuotedAfter_trim, htext, beq_iff_eq.mp hcolon]
    refine hreads.closed fun s hs => t.quotable s ?_
    have hmem : s ∈ (Selection.ofSelector s).selectors := by simp
    rw [hoptions, hs]
    exact hmem

/-- **A title stands in its item as it is**, between the only two quotes there. -/
theorem exists_of_title {t : ItemText} {title : String}
    (h : .title title ∈ t.options.selection.selectors) :
    ∃ front back, '"' ∉ front ∧ '"' ∉ back ∧
      t.text = front ++ '"' :: (title.toList ++ '"' :: back) := by
  rcases t.eq_unset_or_reads with ⟨-, hunset⟩ | ⟨-, name, value, i, hcut, hreads, hoptions⟩
  · rw [hunset] at h
    cases h
  · obtain ⟨-, c, hcolon, htext⟩ := Text.exists_of_cut? hcut
    have hselect : i = .select (.title title) := by
      rw [hoptions] at h
      cases i with
      | select s =>
          rw [AttachmentItem.options, Selection.selectors_ofSelector, List.mem_singleton] at h
          rw [h]
      | _ => cases h
    subst hselect
    obtain ⟨front, back, hfront, hback, hwhole⟩ := Text.exists_trim t.text
    obtain ⟨gap, gap', hgap, hgap', hvalue⟩ := Text.exists_trim value
    have hquote : Text.isBlank '"' = false := by decide
    cases hreads with
    | select hname hread =>
        have hnoQuote : '"' ∉ name :=
          Text.not_mem_of_trim hquote (by rw [hname]; decide)
        refine ⟨front ++ (name ++ ':' :: gap), gap' ++ back, ?_, ?_, ?_⟩
        · simp [hfront.not_mem hquote, hgap.not_mem hquote, hnoQuote]
        · simp [hback.not_mem hquote, hgap'.not_mem hquote]
        · rw [hwhole, htext, beq_iff_eq.mp hcolon, hvalue, Selector.trim_of_read_title hread]
          simp

end ItemText

/-! ## Writing items -/

/-- A text that is framed is left by trimming as it is. -/
theorem Text.Framed.trim_self {cs : List Char} (h : Framed cs) (hne : cs ≠ []) :
    Text.trim cs = cs := by
  simpa using h.trim hne blanks_nil blanks_nil

/-- What stands between two texts without blanks around them has none around it either. -/
theorem Text.Framed.append {cs ds : List Char} (hcs : Framed cs) (mid : List Char) (hne : cs ≠ [])
    (hds : Framed ds) (hne' : ds ≠ []) : Framed (cs ++ mid ++ ds) where
  first := fun c rest h => by
    obtain ⟨d, front, rfl⟩ := List.exists_cons_of_ne_nil hne
    rw [List.append_assoc, List.cons_append] at h
    exact (List.cons.inj h).1 ▸ hcs.first d front rfl
  last := fun c rest h => by
    obtain ⟨back, d, rfl⟩ := List.eq_nil_or_concat ds |>.resolve_left hne'
    rw [List.concat_eq_append] at h hds
    rw [← List.append_assoc] at h
    have hd : [d] = [c] := (List.append_inj' h rfl).2
    exact (List.singleton_inj.mp hd) ▸ hds.last d back rfl

namespace AttachmentItem

/-- The value of an item as it is written. -/
def valueText : AttachmentItem → List Char
  | .bytes n => Decimal.ofUInt64 n
  | .count _ cap => Decimal.ofUInt32 cap
  | .scaling s => Decimal.ofUInt32 s.width ++ 'x' :: Decimal.ofUInt32 s.height
  | .select (.index n) => Decimal.ofUInt64 n
  | .select (.title t) => '"' :: (t.toList ++ ['"'])
  | .select (.group g) => '%' :: g.name.toList

/-- An item as it is written. -/
def text (i : AttachmentItem) : List Char :=
  i.key ++ ':' :: i.valueText

/-- An item that can be written: no side of a resolution is zero, and no quote is in a title. -/
def IsWritable : AttachmentItem → Prop
  | .scaling s => s.width ≠ 0 ∧ s.height ≠ 0
  | .select s => s.IsQuotable
  | _ => True

/-- The digits of a number are read as the number. -/
theorem nat?_digits (n : Nat) : Decimal.nat? (Decimal.digits n) = some n := by
  obtain ⟨c, cs, hdigits⟩ := Decimal.exists_digits_eq_cons n
  have hplain := Decimal.plain?_digits n
  have hdigit : Decimal.isDigit c = true :=
    Decimal.isDigit_of_mem_digits n c (hdigits ▸ List.mem_cons_self)
  have hplus : c ≠ '+' := fun h => absurd (h ▸ hdigit) (by decide)
  rw [hdigits] at hplain ⊢
  simp [Decimal.nat?, hplus, hplain]

/-- The digits of a number below `2 ^ 64` are read as a limit. -/
theorem readLimit_digits {n : Nat} (h : n < UInt64.size) :
    AttachmentOptions.readLimit (Decimal.digits n) = .ok (UInt64.ofNat n) := by
  simp [AttachmentOptions.readLimit, Decimal.uint64?, Decimal.toUInt64?, Decimal.trim_digits,
    nat?_digits, h]

/-- The digits of a word other than zero are read as a side. -/
theorem side?_ofUInt32 {n : UInt32} (h : n ≠ 0) : Scaling.side? (Decimal.ofUInt32 n) = some n := by
  simp [Scaling.side?, Decimal.uint32?, Decimal.toUInt32?, Decimal.ofUInt32, Decimal.trim_digits,
    nat?_digits, n.toNat_lt_size, h]

/-- A key neither begins nor ends with a blank. -/
theorem framed_key (i : AttachmentItem) : Text.Framed i.key :=
  Text.framed_of_no_blank fun _ hc => (plain_of_mem_key hc).1

theorem key_ne_nil (i : AttachmentItem) : i.key ≠ [] :=
  have hne : ∀ key ∈ keys, key ≠ [] := by decide
  hne _ i.key_mem_keys

/-- Digits and what stands behind the marks of a value are not blank. -/
theorem framed_valueText (i : AttachmentItem) : Text.Framed i.valueText ∧ i.valueText ≠ [] := by
  have hdigits : ∀ n, Text.Framed (Decimal.digits n) ∧ Decimal.digits n ≠ [] := fun n => by
    obtain ⟨c, cs, hcs⟩ := Decimal.exists_digits_eq_cons n
    exact ⟨Text.framed_of_no_blank fun d hd =>
      Decimal.isBlank_of_isDigit (Decimal.isDigit_of_mem_digits n d hd), by rw [hcs]; simp⟩
  rcases i with n | ⟨c, cap⟩ | s | (n | t | g)
  · exact hdigits _
  · exact hdigits _
  · obtain ⟨hwidth, hne⟩ := hdigits s.width.toNat
    obtain ⟨hheight, hne'⟩ := hdigits s.height.toNat
    have hframed := hwidth.append ['x'] hne hheight hne'
    rw [List.append_assoc] at hframed
    exact ⟨hframed, by simp [valueText]⟩
  · exact hdigits _
  · have hquote : Text.Framed ['"'] :=
      Text.framed_of_no_blank (List.forall_mem_singleton.mpr (by decide))
    exact ⟨hquote.append t.toList (by simp) hquote (by simp), by simp [valueText]⟩
  · have hname : (valueText (.select (.group g))).all (fun d => !Text.isBlank d) = true := by
      cases g <;> decide
    refine ⟨Text.framed_of_no_blank fun d hd => ?_, by simp [valueText]⟩
    simpa using List.all_eq_true.mp hname d hd

/-- The text of an item neither begins nor ends with a blank. -/
theorem trim_text (i : AttachmentItem) : Text.trim i.text = i.text := by
  have hframed : Text.Framed i.text := by
    have hpieces := i.framed_key.append [':'] i.key_ne_nil i.framed_valueText.1 i.framed_valueText.2
    rwa [List.append_assoc] at hpieces
  exact hframed.trim_self (by simp [text])

/-- The sides of a scaling with `x` between them are read as the scaling. -/
theorem scaling_read_sides {s : Scaling} (hwidth : s.width ≠ 0) (hheight : s.height ≠ 0) :
    Scaling.read (Decimal.ofUInt32 s.width ++ 'x' :: Decimal.ofUInt32 s.height) = .ok s := by
  obtain ⟨hframed, hne⟩ := framed_valueText (.scaling s)
  have htrim : Text.trim (Decimal.ofUInt32 s.width ++ 'x' :: Decimal.ofUInt32 s.height) =
      Decimal.ofUInt32 s.width ++ 'x' :: Decimal.ofUInt32 s.height := hframed.trim_self hne
  have hdigits : ∀ c ∈ Decimal.ofUInt32 s.width, (c == 'x' || c == 'X') = false := fun c hc => by
    have hdigit := Decimal.isDigit_of_mem_digits _ c hc
    rw [Bool.or_eq_false_iff, beq_eq_false_iff_ne, beq_eq_false_iff_ne]
    exact ⟨fun h => absurd (h ▸ hdigit) (by decide), fun h => absurd (h ▸ hdigit) (by decide)⟩
  have hcut := Text.cut?_append_cons hdigits (c := 'x') rfl (Decimal.ofUInt32 s.height)
  simp [Scaling.read, htrim, hcut, side?_ofUInt32 hwidth, side?_ofUInt32 hheight]

/-- The text of a selector is read as the selector. -/
theorem selector_read_valueText {s : Selector} :
    Selector.read (valueText (.select s)) = .ok s := by
  obtain ⟨hframed, hne⟩ := framed_valueText (.select s)
  have htrim : Text.trim (valueText (.select s)) = valueText (.select s) := hframed.trim_self hne
  rw [Selector.read, htrim]
  rcases s with n | t | g
  · obtain ⟨c, cs, hcs⟩ := Decimal.exists_digits_eq_cons n.toNat
    have hdigit : Decimal.isDigit c = true :=
      Decimal.isDigit_of_mem_digits n.toNat c (hcs ▸ List.mem_cons_self)
    have hpercent : c ≠ '%' := fun h => absurd (h ▸ hdigit) (by decide)
    have hquote : c ≠ '"' := fun h => absurd (h ▸ hdigit) (by decide)
    have hplain := Decimal.plain?_digits n.toNat
    rw [hcs] at hplain
    simp [valueText, Decimal.ofUInt64, hcs, hpercent, hquote, Text.between?, hplain,
      Decimal.toUInt64?, n.toNat_lt_size]
  · simp [valueText, Text.between?]
  · have hgroup : AttachmentGroup.read? g.name.toList = some g := by cases g <;> decide
    simp [valueText, hgroup]

/-- A value is read as it was written. -/
theorem reads_valueText {i : AttachmentItem} (h : i.IsWritable) : Reads i.key i.valueText i := by
  have hkey : Text.trim i.key = i.key := i.framed_key.trim_self i.key_ne_nil
  rcases i with n | ⟨c, cap⟩ | s | s
  · have hread := readLimit_digits n.toNat_lt_size
    rw [UInt64.ofNat_toNat] at hread
    exact .bytes hkey hread
  · have hlt : cap.toNat < UInt64.size := Nat.lt_trans cap.toNat_lt_size (by decide)
    refine .count hkey (readLimit_digits hlt) ?_
    simp [Decimal.toUInt32?, cap.toNat_lt_size]
  · exact .scaling hkey (scaling_read_sides h.1 h.2)
  · exact .select hkey selector_read_valueText

/-- Commas are written between quotes only. -/
theorem onePiece_text {i : AttachmentItem} (h : i.IsWritable) : Text.OnePiece false i.text := by
  have hkey : ',' ∉ i.key := fun hmem => (plain_of_mem_key hmem).2.2.2 rfl
  have hquote : '"' ∉ i.key := fun hmem => (plain_of_mem_key hmem).2.1 rfl
  refine Text.onePiece_append (Text.onePiece_of_not_mem hkey false) ?_
  rw [Text.isQuotedAfter_of_not_mem false hquote]
  refine ⟨by decide, ?_⟩
  change Text.OnePiece false i.valueText
  have hdigits : ∀ n, ',' ∉ Decimal.digits n := Window.comma_not_mem_digits
  rcases i with n | ⟨c, cap⟩ | s | (n | t | g)
  · exact Text.onePiece_of_not_mem (hdigits _) false
  · exact Text.onePiece_of_not_mem (hdigits _) false
  · refine Text.onePiece_of_not_mem ?_ false
    simp [valueText, Decimal.ofUInt32, hdigits]
  · exact Text.onePiece_of_not_mem (hdigits _) false
  · refine ⟨by decide, Text.onePiece_append (Text.onePiece_quoted h) ?_⟩
    exact Text.onePiece_of_not_mem (by decide) _
  · refine Text.onePiece_of_not_mem ?_ false
    cases g <;> decide

/-- **Every item can be written**, and what is written can stand in a list. -/
theorem exists_itemText {i : AttachmentItem} (h : i.IsWritable) :
    ∃ t : ItemText, t.text = i.text ∧ t.options = i.options := by
  have hcolon : ∀ c ∈ i.key, (c == ':') = false := fun c hc =>
    beq_eq_false_iff_ne.mpr (plain_of_mem_key hc).2.2.1
  have hcut : Text.cut? (· == ':') i.text = some (i.key, i.valueText) :=
    Text.cut?_append_cons hcolon rfl i.valueText
  have hitem : AttachmentOptions.readItem .unset i.text = .ok i.options :=
    AttachmentOptions.readItem_eq_ok_iff.mpr
      ⟨i.key, i.valueText, i, hcut, reads_valueText h, i.unset_add⟩
  have hblank : Text.isAllBlank i.text = false := by
    obtain ⟨c, key, hkey⟩ := List.exists_cons_of_ne_nil i.key_ne_nil
    have hc := i.framed_key.first c key hkey
    simp [Text.isAllBlank, text, hkey, hc]
  have hread : AttachmentOptions.read (String.ofList i.text) = .ok i.options := by
    rw [AttachmentOptions.read, String.toList_ofList,
      AttachmentOptions.splitItems_of_onePiece (onePiece_text h)]
    simp [AttachmentOptions.readItems, hblank, i.trim_text, hitem]
  have hquotable : ∀ s ∈ i.options.selection.selectors, s.IsQuotable := by
    rcases i with - | - | - | s
    · simp [options, AttachmentOptions.unset, Selection.selectors]
    · simp [options, AttachmentOptions.unset, Selection.selectors]
    · simp [options, AttachmentOptions.unset, Selection.selectors]
    · rw [options, Selection.selectors_ofSelector]
      exact List.forall_mem_singleton.mpr h
  exact ⟨⟨i.text, i.options, hread, onePiece_text h, hquotable⟩, rfl, rfl⟩

end AttachmentItem

end ListingQuery
