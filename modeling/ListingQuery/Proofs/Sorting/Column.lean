import ListingQuery.Proofs.Sorting.KeyValue

/-!
# The columns of a sort

The values of one field in all listings are a column.  Every field that can be sorted by has a column
with one kind of numbers, so that the values of its column can be ordered: three fields count in
integers, all others in floating point numbers if they count at all.

* `Listing.HasNoNaN` are the listings whose floating point numbers are numbers;
* `Field.scale` is the kind of numbers of a field;
* `Field.valueIn_onScaleOrNaN` says that its values are on that scale or NaN, and
  `Field.valueIn_onScale` that they are on it where the listing holds no NaN.
-/

namespace ListingQuery

/-- The floating point numbers of the prices. -/
def Prices.numbers (p : Prices) : List (Option Binary64) :=
  [p.kaltmiete, p.warmmiete, p.nettokaltmiete, p.nebenkosten, p.kaufpreis, p.pacht, p.erbpacht]

/-- The floating point numbers of the areas. -/
def Areas.numbers (a : Areas) : List (Option Binary64) :=
  [a.anzahlZimmer, a.wohnflaeche, a.grundstuecksflaeche, a.anzahlBalkone, a.anzahlTerrassen]

/-- All floating point numbers of a listing. -/
def Listing.numbers (l : Listing) : List (Option Binary64) :=
  l.preise.elim [] Prices.numbers ++ l.flaechen.elim [] Areas.numbers ++
    [l.verwaltungObjekt.bind (·.laufzeit)]

/-- No floating point number of the listing is NaN. -/
def Listing.HasNoNaN (l : Listing) : Prop :=
  ∀ o ∈ l.numbers, ∀ x ∈ o, x.isNaN = false

instance (l : Listing) : Decidable l.HasNoNaN :=
  inferInstanceAs (Decidable (∀ o ∈ l.numbers, ∀ x ∈ o, x.isNaN = false))

/-- No number of such a listing is NaN. -/
theorem Listing.HasNoNaN.isNaN_eq_false {l : Listing} (h : l.HasNoNaN) {x : Binary64}
    (hx : some x ∈ l.numbers) : x.isNaN = false :=
  h _ hx x rfl

/-- The kind of numbers in the column of a field. -/
def Field.scale : Field → Value.Scale
  | .etage | .etagen | .maxPersonen => .whole
  | _ => .real

open Value (OnScale)

/-! ## How fields make values -/

theorem onScale_ofText (s : Value.Scale) (t : Option String) : OnScale s (Field.ofText t) := by
  unfold Field.ofText
  cases nonEmpty? t <;> cases s <;> trivial

theorem onScale_bool (s : Value.Scale) (b : Bool) : OnScale s (some (.bool b)) := by
  cases s <;> trivial

/-- Texts that are there are in every column. -/
theorem onScale_str (s : Value.Scale) (t : String) : OnScale s (some (.str t)) := by
  cases s <;> trivial

/-- Rental periods are in every column, as texts. -/
theorem onScale_period (s : Value.Scale) (p : Option RentalPeriod) :
    OnScale s (Field.ofPeriod p) := by
  unfold Field.ofPeriod
  cases p.bind RentalPeriod.text? <;> cases s <;> trivial

theorem onScale_int (o : Option Int64) : OnScale .whole (o.map .int) := by
  cases o <;> trivial

/-- A value of the column, or a number of the listing that is NaN. -/
def OnScaleOrNaN (l : Listing) (s : Value.Scale) (v : Option Value) : Prop :=
  OnScale s v ∨ ∃ x, some x ∈ l.numbers ∧ x.isNaN = true ∧ v = some (.float x)

section OrNaN

variable {l : Listing} {s : Value.Scale}

/-- A value that is made of another is in the column or NaN if all are that can be made. -/
theorem onScaleOrNaN_bind {α : Type} {o : Option α} {g : α → Option Value}
    (h : ∀ a, o = some a → OnScaleOrNaN l s (g a)) : OnScaleOrNaN l s (o.bind g) := by
  cases o with
  | none => exact Or.inl trivial
  | some a => exact h a rfl

/-- Floating point numbers of the listing are in columns of real numbers, or they are NaN. -/
theorem onScaleOrNaN_float {o : Option Binary64} (h : o ∈ l.numbers) :
    OnScaleOrNaN l .real (o.map .float) := by
  cases o with
  | none => exact Or.inl trivial
  | some x =>
      cases hnan : x.isNaN with
      | false => exact Or.inl hnan
      | true => exact Or.inr ⟨x, h, hnan, rfl⟩

/-- Amounts of the listing are in columns of real numbers, or they are NaN. -/
theorem onScaleOrNaN_ofAmount {o : Option Binary64} (h : o ∈ l.numbers) :
    OnScaleOrNaN l .real (Field.ofAmount o) := by
  unfold Field.ofAmount
  cases hshown : o.filter _ with
  | none => exact Or.inl trivial
  | some x =>
      rw [Option.eq_some_of_filter_eq_some hshown] at h
      exact onScaleOrNaN_float h

/-- Of two values in a column or NaN the first that is there is one. -/
theorem onScaleOrNaN_orElse {v w : Option Value} (hv : OnScaleOrNaN l s v)
    (hw : OnScaleOrNaN l s w) : OnScaleOrNaN l s (v <|> w) := by
  cases v with
  | none => simpa using hw
  | some v => simpa using hv

end OrNaN

/-- A value in a section that has to be there. -/
theorem Listing.required_map_eq_ok {α : Type} {s : Section} {content : Option α}
    {pick : α → Option Value} {v : Option Value}
    (h : (Listing.required s content).map pick = .ok v) : ∃ a, content = some a ∧ v = pick a := by
  cases content with
  | none => cases h
  | some a => exact ⟨a, rfl, (Except.ok.inj h).symm⟩

/-- **The values of a field that can be sorted by are on its scale, or they are NaN.** -/
theorem Field.valueIn_onScaleOrNaN {f : Field} (hf : f.isSortable = true) {l : Listing}
    {v : Option Value} (h : f.valueIn l = .ok v) : OnScaleOrNaN l f.scale v := by
  cases f
  case objekttyp => cases hf
  case objektart | ort | ortsteil | plz | strasse | hausnummer | objektnrIntern | verfuegbarAb =>
    obtain ⟨a, _, rfl⟩ := Listing.required_map_eq_ok h
    exact Or.inl (onScale_ofText _ _)
  case openimmoObid | objektnrExtern =>
    obtain ⟨a, _, rfl⟩ := Listing.required_map_eq_ok h
    exact Or.inl (onScale_str _ _)
  case kaufbar | mietbar | erbpachtbar | leasing =>
    obtain ⟨a, _, rfl⟩ := Listing.required_map_eq_ok h
    exact Or.inl (onScale_bool _ _)
  case etage | etagen =>
    obtain ⟨a, _, rfl⟩ := Listing.required_map_eq_ok h
    exact Or.inl (onScale_int _)
  case abdatum =>
    obtain ⟨a, _, rfl⟩ := Listing.required_map_eq_ok h
    left
    cases a.abdatum <;> trivial
  case moebliert =>
    obtain ⟨a, _, rfl⟩ := Listing.required_map_eq_ok h
    unfold Field.ofFurnishing
    cases a.moebliert with
    | none => exact Or.inl (onScale_bool _ _)
    | some furnishing =>
        exact onScaleOrNaN_orElse (Or.inl (onScale_ofText _ _)) (Or.inl (onScale_bool _ _))
  case zimmer =>
    obtain ⟨a, ha, rfl⟩ := Listing.required_map_eq_ok h
    exact onScaleOrNaN_float (by simp [Listing.numbers, Areas.numbers, ha])
  all_goals
    obtain rfl := Except.ok.inj h
  case barrierefrei | haustiere | seniorengerecht | raucher => exact Or.inl (onScale_bool _ _)
  case land | aussenCourtage | innenCourtage | baujahr | zustand | epart |
      energieverbrauchkennwert | endenergiebedarf | primaerenergietraeger | stromwert |
      waermewert | wertklasse =>
    exact onScaleOrNaN_bind fun a _ => Or.inl (onScale_ofText _ _)
  case minMietdauer | maxMietdauer =>
    exact onScaleOrNaN_bind fun a _ => Or.inl (onScale_period _ _)
  case maxPersonen => exact onScaleOrNaN_bind fun a _ => Or.inl (onScale_int _)
  case wohnflaeche | grundstuecksflaeche | balkone | terrassen | kaltmiete =>
    exact onScaleOrNaN_bind fun a ha =>
      onScaleOrNaN_float (by simp [Listing.numbers, Areas.numbers, Prices.numbers, ha])
  case warmmiete | nebenkosten | kaufpreis | pacht | erbpacht | laufzeit =>
    exact onScaleOrNaN_bind fun a ha =>
      onScaleOrNaN_ofAmount (by simp [Listing.numbers, Prices.numbers, ha])
  case miete =>
    refine onScaleOrNaN_bind fun a ha => ?_
    have hnumber : ∀ o ∈ a.numbers, o ∈ l.numbers := by
      intro o ho
      simp [Listing.numbers, ha, ho]
    exact onScaleOrNaN_orElse (onScaleOrNaN_ofAmount (hnumber _ (by simp [Prices.numbers])))
      (onScaleOrNaN_orElse (onScaleOrNaN_float (hnumber _ (by simp [Prices.numbers])))
        (onScaleOrNaN_ofAmount (hnumber _ (by simp [Prices.numbers]))))

/-- **The values of a field that can be sorted by are on its scale**, in listings without NaN. -/
theorem Field.valueIn_onScale {f : Field} (hf : f.isSortable = true) {l : Listing}
    (hl : l.HasNoNaN) {v : Option Value} (h : f.valueIn l = .ok v) : OnScale f.scale v := by
  rcases Field.valueIn_onScaleOrNaN hf h with hscale | ⟨x, hx, hnan, _⟩
  · exact hscale
  · rw [hl.isNaN_eq_false hx] at hnan
    cases hnan

end ListingQuery
