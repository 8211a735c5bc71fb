import ListingQuery.Listing.Json
import ListingQuery.Proofs.Calendar.DateText
import ListingQuery.Proofs.Json.RoundTrip
import ListingQuery.Proofs.Sorting.Column

/-!
# Listings read back

A record is written with all its elements, each under its key, and is read by its keys.  So a record
is read as it was written if its elements are, and a listing is, section by section.

* `Json.Codec` is a way to write values and to read them again;
* `Json.elements?_object` finds the elements of a record by their keys;
* `Listing.codec` is the one of listings, put together from those of its sections;
* `Listing.read?_layout` and `Listing.readAll?_layout` are the texts of listings.
-/

namespace ListingQuery

/-- The text of the number is read as the number. -/
def Binary64.Rereads (x : Binary64) : Prop :=
  Json.number? (NumberLayout.json.text x) = some (.float x)

instance (x : Binary64) : Decidable x.Rereads :=
  decidable_of_iff ((Json.number? (NumberLayout.json.text x)).any fun j =>
    match j with
    | .float y => y == x
    | _ => false) <| by
    unfold Binary64.Rereads
    cases Json.number? (NumberLayout.json.text x) with
    | none => simp
    | some j => cases j <;> simp

namespace Json

/-- Values are read as they are written and never written as `null`, and the tree of a value that fits
has a text that is read back. -/
structure Codec {α : Type} (write : α → Json) (read? : Json → Option α) (fits : α → Prop) : Prop where
  read : ∀ a, read? (write a) = some a
  notNull : ∀ a, write a ≠ .null
  rereadable : ∀ a, fits a → (write a).Rereadable

namespace Codec

variable {α : Type} {write : α → Json} {read? : Json → Option α} {fits : α → Prop}

/-! ## Options and lists -/

/-- Since no value is `null`, its absence is. -/
theorem optional (c : Codec write read? fits) (o : Option α) :
    optional? read? (some (ofOption write o)) = some o := by
  cases o with
  | none => rfl
  | some a =>
      have hnullable : nullable? read? (write a) = (read? (write a)).map some := by
        unfold nullable?
        split
        · rename_i hnull
          exact absurd hnull (c.notNull a)
        · rfl
      rw [ofOption, optional?, hnullable, c.read, Option.map_some]

/-- An option of values that fit has a text that is read back. -/
theorem rereadable_ofOption (c : Codec write read? fits) {o : Option α} (h : ∀ a ∈ o, fits a) :
    (ofOption write o).Rereadable := by
  cases o with
  | none => exact .null
  | some a => exact c.rereadable a (h a rfl)

/-- A list of written values is read back, value by value. -/
theorem readAll? (c : Codec write read? fits) (as : List α) :
    Json.readAll? read? (as.map write) = some as := by
  induction as with
  | nil => rfl
  | cons a as ih => simp [Json.readAll?, c.read, ih]

/-- **Lists.**  A way to write values and read them back gives one for lists of them. -/
theorem list (c : Codec write read? fits) :
    Codec (fun as => .array (as.map write)) (list? read?) fun as => ∀ a ∈ as, fits a where
  read as := c.readAll? as
  notNull _ := nofun
  rereadable as h := by
    refine .array fun j hj => ?_
    obtain ⟨a, ha, rfl⟩ := List.mem_map.mp hj
    exact c.rereadable a (h a ha)

/-! ## Elements -/

theorem str : Codec .str str? fun _ => True :=
  ⟨fun _ => rfl, nofun, fun s _ => .str s⟩

theorem bool : Codec .bool bool? fun _ => True :=
  ⟨fun _ => rfl, nofun, fun b _ => .bool b⟩

/-- Floating point numbers are read back from their trees; from their texts those that reread
are. -/
theorem float : Codec .float float? Binary64.Rereads :=
  ⟨fun _ => rfl, nofun, fun _ hread => .float hread⟩

theorem int64 : Codec ofInt64 int64? fun _ => True where
  read i := by
    have hrange : Int64.minValue.toInt ≤ i.toInt ∧ i.toInt ≤ Int64.maxValue.toInt :=
      ⟨i.minValue_le_toInt, i.toInt_le⟩
    rw [ofInt64, int64?, if_pos hrange, Int64.ofInt_toInt]
  notNull _ := nofun
  rereadable i _ := by
    have hupper := i.toInt_lt
    exact .int i.le_toInt (by omega)

theorem uint64 : Codec ofUInt64 uint64? fun _ => True where
  read n := by
    have hrange : (0 : Int) ≤ n.toNat ∧ (n.toNat : Int) < UInt64.size :=
      ⟨Int.natCast_nonneg _, Int.ofNat_lt.mpr n.toNat_lt_size⟩
    rw [ofUInt64, uint64?, if_pos hrange, Int.toNat_natCast, UInt64.ofNat_toNat]
  notNull _ := nofun
  rereadable n _ := by
    have hupper : n.toNat < 2 ^ 64 := n.toNat_lt
    exact .int (by omega) (by omega)

/-- Dates are written as texts and read back. -/
theorem date : Codec ofDate date? fun _ => True where
  read d := by
    rw [ofDate, date?, str?, Option.bind_some, String.toList_ofList, Date.readIso?_text]
  notNull _ := nofun
  rereadable d _ := .str (String.ofList d.text)

end Codec

/-- A text that may be missing is read back. -/
@[simp] theorem optional?_ofStr? (s : Option String) : optional? str? (some (ofStr? s)) = some s :=
  Codec.str.optional s

/-- A truth value that may be missing is read back. -/
@[simp] theorem optional?_ofBool? (b : Option Bool) :
    optional? bool? (some (ofBool? b)) = some b :=
  Codec.bool.optional b

/-- A signed word that may be missing is read back. -/
@[simp] theorem optional?_ofInt64? (i : Option Int64) :
    optional? int64? (some (ofInt64? i)) = some i :=
  Codec.int64.optional i

/-- A number that may be missing is read back. -/
@[simp] theorem optional?_ofFloat64? (x : Option Binary64) :
    optional? float? (some (ofFloat64? x)) = some x :=
  Codec.float.optional x

/-- A member that is there is read, whatever stands for a missing one. -/
@[simp] theorem orElse?_some {α : Type} (missing : α) (read? : Json → Option α) (j : Json) :
    orElse? missing read? (some j) = read? j := rfl

@[simp] theorem rereadable_ofStr? (s : Option String) : (ofStr? s).Rereadable :=
  Codec.str.rereadable_ofOption fun _ _ => trivial

@[simp] theorem rereadable_ofBool? (b : Option Bool) : (ofBool? b).Rereadable :=
  Codec.bool.rereadable_ofOption fun _ _ => trivial

@[simp] theorem rereadable_ofInt64? (i : Option Int64) : (ofInt64? i).Rereadable :=
  Codec.int64.rereadable_ofOption fun _ _ => trivial

/-- A number that may be missing has a text that is read back if the number rereads. -/
theorem rereadable_ofFloat64? {x : Option Binary64} (h : ∀ y ∈ x, y.Rereads) :
    (ofFloat64? x).Rereadable :=
  Codec.float.rereadable_ofOption h

/-! ## Records -/

/-- A key that is not repeated has one value. -/
theorem single?_of_nodup {members : List (String × Json)} (hnodup : (members.map Prod.fst).Nodup) :
    ∀ m ∈ members, single? members m.1 = some (some m.2) := by
  have hvalues : ∀ m ∈ members, valuesAt m.1 members = [m.2] := by
    induction members with
    | nil => nofun
    | cons m ms ih =>
        obtain ⟨hfresh, hrest⟩ := List.nodup_cons.mp hnodup
        have hother : ∀ n ∈ ms, n.1 ≠ m.1 := fun n hn hsame =>
          hfresh (List.mem_map.mpr ⟨n, hn, hsame⟩)
        intro n hn
        rcases List.mem_cons.mp hn with rfl | hn
        · simpa [valuesAt, List.filter_eq_nil_iff] using hother
        · have hkey : (m.1 == n.1) = false := beq_false_of_ne (hother n hn).symm
          simpa [valuesAt, hkey] using ih hrest n hn
  intro m hm
  rw [single?, hvalues m hm]

/-- **The elements of a record stand under its keys.** -/
theorem elements?_object (keys : List String) {members : List (String × Json)}
    (hkeys : members.map Prod.fst = keys) (hnodup : keys.Nodup) :
    elements? keys (.object members) = some (members.map fun m => some m.2) := by
  subst hkeys
  have hsingle := single?_of_nodup hnodup
  have hall : ∀ ms : List (String × Json), ms ⊆ members →
      (ms.map Prod.fst).mapM (single? members) = some (ms.map fun m => some m.2) := by
    intro ms hsub
    induction ms with
    | nil => rfl
    | cons m ms ih =>
        obtain ⟨hm, hms⟩ := List.cons_subset.mp hsub
        simp [hsingle m hm, ih hms]
  exact hall members fun _ hm => hm

end Json

open Json

/-! ## Attachments -/

/-- Groups of attachments are written by their names and read back. -/
theorem AttachmentGroup.codec :
    Codec (fun g => .str g.name) AttachmentGroup.ofJson? fun _ => True where
  read g := by
    cases g <;> decide
  notNull _ := nofun
  rereadable g _ := .str g.name

/-- Locations are written by their names and read back. -/
theorem Location.codec : Codec (fun l => .str l.name) Location.ofJson? fun _ => True where
  read l := by
    cases l <;> decide
  notNull _ := nofun
  rereadable l _ := .str l.name

/-- **Attachments** are written and read back. -/
theorem Attachment.codec : Codec Attachment.toJson Attachment.ofJson? fun _ => True where
  read a := by
    rw [ofJson?, toJson, elements?_object keys rfl (by decide)]
    simp [AttachmentGroup.codec.optional, Location.codec.read, Codec.uint64.read]
  notNull _ := nofun
  rereadable a _ := .object <| by
    simp [AttachmentGroup.codec.rereadable_ofOption, Rereadable.str, Codec.uint64.rereadable]

/-! ## Sections

Each record is read in the same way: its elements are found under its keys, and every element is read as
it was written.
-/

/-- The kinds of marketing are written and read back. -/
theorem Marketing.codec : Codec Marketing.toJson Marketing.ofJson? fun _ => True where
  read m := by
    rw [ofJson?, toJson, elements?_object keys rfl (by decide)]
    simp [bool?]
  notNull _ := nofun
  rereadable m _ := .object (by simp [Rereadable.bool])

/-- Classifications are written and read back, with the kinds of marketing in them. -/
theorem Classification.codec :
    Codec Classification.toJson Classification.ofJson? fun _ => True where
  read c := by
    rw [ofJson?, toJson, elements?_object keys rfl (by decide)]
    simp [ofStrings, Codec.str.list.read, Marketing.codec.read]
  notNull _ := nofun
  rereadable c _ := .object <| by
    simp [ofStrings, Codec.str.list.rereadable, Marketing.codec.rereadable]

theorem Place.codec : Codec Place.toJson Place.ofJson? fun _ => True where
  read p := by
    rw [ofJson?, toJson, elements?_object keys rfl (by decide)]
    simp
  notNull _ := nofun
  rereadable p _ := .object (by simp)

/-- Prices are written and read back, if their numbers reread. -/
theorem Prices.codec :
    Codec Prices.toJson Prices.ofJson? fun p => ∀ o ∈ p.numbers, ∀ x ∈ o, x.Rereads where
  read p := by
    rw [ofJson?, toJson, elements?_object keys rfl (by decide)]
    simp
  notNull _ := nofun
  rereadable p h := by
    have hnumbers : ∀ o ∈ p.numbers, (ofFloat64? o).Rereadable := fun o ho =>
      rereadable_ofFloat64? (h o ho)
    simp only [numbers, List.forall_mem_cons] at hnumbers
    exact .object (by simp [hnumbers])

/-- Areas are written and read back, if their numbers reread. -/
theorem Areas.codec :
    Codec Areas.toJson Areas.ofJson? fun a => ∀ o ∈ a.numbers, ∀ x ∈ o, x.Rereads where
  read a := by
    rw [ofJson?, toJson, elements?_object keys rfl (by decide)]
    simp
  notNull _ := nofun
  rereadable a h := by
    have hnumbers : ∀ o ∈ a.numbers, (ofFloat64? o).Rereadable := fun o ho =>
      rereadable_ofFloat64? (h o ho)
    simp only [numbers, List.forall_mem_cons] at hnumbers
    exact .object (by simp [hnumbers])

/-- What is said of furnishing is written and read back. -/
theorem Furnishing.codec : Codec Furnishing.toJson Furnishing.ofJson? fun _ => True where
  read f := by
    rw [ofJson?, toJson, elements?_object keys rfl (by decide)]
    simp
  notNull _ := nofun
  rereadable f _ := .object (by simp)

/-- Fittings are written and read back, with the furnishing in them. -/
theorem Fittings.codec : Codec Fittings.toJson Fittings.ofJson? fun _ => True where
  read f := by
    rw [ofJson?, toJson, elements?_object keys rfl (by decide)]
    simp [Furnishing.codec.optional]
  notNull _ := nofun
  rereadable f _ := .object (by simp [Furnishing.codec.rereadable_ofOption])

theorem EnergyPass.codec : Codec EnergyPass.toJson EnergyPass.ofJson? fun _ => True where
  read e := by
    rw [ofJson?, toJson, elements?_object keys rfl (by decide)]
    simp
  notNull _ := nofun
  rereadable e _ := .object (by simp)

/-- Conditions are written and read back, with the energy pass in them. -/
theorem Condition.codec : Codec Condition.toJson Condition.ofJson? fun _ => True where
  read c := by
    rw [ofJson?, toJson, elements?_object keys rfl (by decide)]
    simp [EnergyPass.codec.optional]
  notNull _ := nofun
  rereadable c _ := .object (by simp [EnergyPass.codec.rereadable_ofOption])

theorem RentalPeriod.codec : Codec RentalPeriod.toJson RentalPeriod.ofJson? fun _ => True where
  read p := by
    rw [ofJson?, toJson, elements?_object keys rfl (by decide)]
    simp
  notNull _ := nofun
  rereadable p _ := .object (by simp)

/-- Terms are written and read back, if the number in them rereads. -/
theorem Terms.codec :
    Codec Terms.toJson Terms.ofJson? fun t => ∀ x ∈ t.laufzeit, x.Rereads where
  read t := by
    rw [ofJson?, toJson, elements?_object keys rfl (by decide)]
    simp [RentalPeriod.codec.optional, Codec.date.optional]
  notNull _ := nofun
  rereadable t h := .object <| by
    simp [RentalPeriod.codec.rereadable_ofOption, Codec.date.rereadable_ofOption,
      rereadable_ofFloat64? h]

theorem Identification.codec :
    Codec Identification.toJson Identification.ofJson? fun _ => True where
  read i := by
    rw [ofJson?, toJson, elements?_object keys rfl (by decide)]
    simp [str?]
  notNull _ := nofun
  rereadable i _ := .object (by simp [Rereadable.str])

theorem FreeTexts.codec : Codec FreeTexts.toJson FreeTexts.ofJson? fun _ => True where
  read f := by
    rw [ofJson?, toJson, elements?_object keys rfl (by decide)]
    simp
  notNull _ := nofun
  rereadable f _ := .object (by simp)

/-! ## Listings -/

namespace Listing

/-- The texts of the numbers of the listing are read as these numbers. -/
def Rereads (l : Listing) : Prop :=
  ∀ o ∈ l.numbers, ∀ x ∈ o, x.Rereads

/-- **Listings** are written and read back, section by section, if their numbers reread. -/
theorem codec : Codec toJson ofJson? Rereads where
  read l := by
    rw [ofJson?, toJson, elements?_object keys rfl (by decide)]
    simp [Classification.codec.optional, Place.codec.optional, Prices.codec.optional,
      Areas.codec.optional, Fittings.codec.optional, Condition.codec.optional,
      Terms.codec.optional, Identification.codec.optional, FreeTexts.codec.optional,
      Attachment.codec.list.read]
  notNull _ := nofun
  rereadable l h := by
    have hprices : (ofOption Prices.toJson l.preise).Rereadable :=
      Prices.codec.rereadable_ofOption fun p hp o ho => h o (by
        simp [numbers, Option.mem_def.mp hp, ho])
    have hareas : (ofOption Areas.toJson l.flaechen).Rereadable :=
      Areas.codec.rereadable_ofOption fun a ha o ho => h o (by
        simp [numbers, Option.mem_def.mp ha, ho])
    have hterms : (ofOption Terms.toJson l.verwaltungObjekt).Rereadable :=
      Terms.codec.rereadable_ofOption fun t ht => h t.laufzeit (by
        simp [numbers, Option.mem_def.mp ht])
    exact .object <| by
      simp [hprices, hareas, hterms, Classification.codec.rereadable_ofOption,
        Place.codec.rereadable_ofOption, Fittings.codec.rereadable_ofOption,
        Condition.codec.rereadable_ofOption, Identification.codec.rereadable_ofOption,
        FreeTexts.codec.rereadable_ofOption, Attachment.codec.list.rereadable]

/-- **A listing is read as it was written**, on one line or over several. -/
theorem read?_layout {write : Json → String} (hwrite : write ∈ layouts) {l : Listing}
    (h : l.Rereads) : read? (write l.toJson) = some l := by
  rw [read?, Json.read?_layout hwrite (codec.rereadable l h), Option.bind_some, codec.read]

/-- **A list of listings is read as it was written.** -/
theorem readAll?_layout {write : Json → String} (hwrite : write ∈ layouts) {ls : List Listing}
    (h : ∀ l ∈ ls, l.Rereads) : readAll? (write (.array (ls.map toJson))) = some ls := by
  rw [readAll?, Json.read?_layout hwrite (codec.list.rereadable ls h), Option.bind_some,
    codec.list.read]

end Listing

end ListingQuery
