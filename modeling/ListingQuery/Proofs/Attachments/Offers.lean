import ListingQuery.Proofs.Attachments.ItemOrder
import ListingQuery.Proofs.Attachments.Shipping

/-!
# Selectors offered one after the other

A selection is a small machine: it starts where nothing is selected, takes the first selector that it
is offered, whatever its kind, and from then on those of the same kind.  What it refuses leaves it as
it is.  So the first offer fixes the kind, and what is selected in the end are the attachments that one
of the selectors it took selects alone.

* `Selection.offer_of_takes` and `Selection.offer_of_not_takes` are the two things an offer can do;
* `Selection.kind?_afterOffers` and `Selection.selectors_afterOffers` say what any number of offers
  leaves behind;
* `Selection.selects_iff` brings a selection back to its selectors, one by one;
* `Allocation.of_explicit` and what follows it is the way around the budget;
* `Selection.offers_select` puts these together.
-/

namespace ListingQuery

namespace Selection

/-! ## One offer -/

/-- An offer is the addition of a selector that may fail, in place: a failure leaves the selection. -/
theorem offer_eq_push (sel : Selection) (s : Selector) :
    sel.offer s = match sel.push s with
      | .ok after => (.ok (), after)
      | .error e => (.error e, sel) := by
  cases sel <;> cases s <;> rfl

/-- The selection has no kind yet, or that of the selector. -/
def Takes (sel : Selection) (s : Selector) : Prop :=
  ∀ kind, sel.kind? = some kind → kind = s.kind

/-- A selection without a kind takes every selector. -/
theorem takes_of_kind?_eq_none {sel : Selection} (hkind : sel.kind? = none) (s : Selector) :
    sel.Takes s := by
  intro kind h
  rw [hkind] at h
  cases h

/-- **What is taken** goes behind the selectors before, and its kind is that of the selection. -/
theorem offer_of_takes {sel : Selection} {s : Selector} (htakes : sel.Takes s) :
    (sel.offer s).1 = .ok () ∧ (sel.offer s).2.selectors = sel.selectors ++ [s] ∧
      (sel.offer s).2.kind? = some s.kind := by
  obtain ⟨after, hpush, hselectors, hkind⟩ := exists_push htakes
  rw [offer_eq_push, hpush]
  exact ⟨rfl, hselectors, hkind⟩

/-- **What is refused** is named by its kind and leaves the selection as it is. -/
theorem offer_of_not_takes {sel : Selection} {s : Selector} (hrefuses : ¬ sel.Takes s) :
    sel.offer s = (.error (.conflictingSelection s.kind), sel) := by
  obtain ⟨kind, hkind, hother⟩ : ∃ kind, sel.kind? = some kind ∧ kind ≠ s.kind := by
    simpa [Takes] using hrefuses
  cases sel with
  | all => cases hkind
  | indexes ns =>
      cases hkind
      cases s with
      | index n => exact absurd rfl hother
      | title t => rfl
      | group g => rfl
  | titles ts =>
      cases hkind
      cases s with
      | index n => rfl
      | title t => exact absurd rfl hother
      | group g => rfl
  | groups gs =>
      cases hkind
      cases s with
      | index n => rfl
      | title t => rfl
      | group g => exact absurd rfl hother

/-- An offer succeeds exactly if the selector is taken. -/
theorem offer_eq_ok_iff {sel : Selection} {s : Selector} :
    (sel.offer s).1 = .ok () ↔ sel.Takes s := by
  refine ⟨fun hok => ?_, fun htakes => (offer_of_takes htakes).1⟩
  by_contra hrefuses
  rw [offer_of_not_takes hrefuses] at hok
  cases hok

/-! ## Any number of offers -/

/-- What is selected behind offers. -/
def afterOffers (sel : Selection) (offers : List Selector) : Selection :=
  offers.foldl (fun sel s => (sel.offer s).2) sel

/-- The selectors among offers that are taken. -/
def accepted (sel : Selection) : List Selector → List Selector
  | [] => []
  | s :: offers =>
    match sel.offer s with
    | (.ok _, after) => s :: accepted after offers
    | (.error _, after) => accepted after offers

/-- A selector that is taken is the first of those that are accepted. -/
theorem accepted_cons_of_takes {sel : Selection} {s : Selector} (htakes : sel.Takes s)
    (offers : List Selector) :
    sel.accepted (s :: offers) = s :: (sel.offer s).2.accepted offers := by
  have hoffer : sel.offer s = (.ok (), (sel.offer s).2) :=
    Prod.ext (offer_of_takes htakes).1 rfl
  rw [accepted, hoffer]

/-- A selector that is refused is left out. -/
theorem accepted_cons_of_not_takes {sel : Selection} {s : Selector} (hrefuses : ¬ sel.Takes s)
    (offers : List Selector) : sel.accepted (s :: offers) = sel.accepted offers := by
  rw [accepted, offer_of_not_takes hrefuses]

/-- One more offer is made to what the others have left. -/
theorem afterOffers_concat (sel : Selection) (offers : List Selector) (s : Selector) :
    sel.afterOffers (offers ++ [s]) = ((sel.afterOffers offers).offer s).2 := by
  simp [afterOffers]

/-- A kind is kept, and where there is none the first offer brings it. -/
theorem kind?_afterOffers (sel : Selection) (offers : List Selector) :
    (sel.afterOffers offers).kind? = sel.kind?.or (offers.head?.map Selector.kind) := by
  induction offers generalizing sel with
  | nil => simp [afterOffers]
  | cons s offers ih =>
      have hrest := ih (sel.offer s).2
      change (afterOffers _ offers).kind? = _
      rw [hrest]
      by_cases htakes : sel.Takes s
      · rw [(offer_of_takes htakes).2.2]
        cases hkind : sel.kind? with
        | none => rfl
        | some kind => exact congrArg some (htakes kind hkind).symm
      · rw [offer_of_not_takes htakes]
        cases hkind : sel.kind? with
        | none => exact absurd (takes_of_kind?_eq_none hkind s) htakes
        | some kind => rfl

/-- The selectors behind offers are those before and those that were taken. -/
theorem selectors_afterOffers (sel : Selection) (offers : List Selector) :
    (sel.afterOffers offers).selectors = sel.selectors ++ sel.accepted offers := by
  induction offers generalizing sel with
  | nil => simp [afterOffers, accepted]
  | cons s offers ih =>
      have hrest := ih (sel.offer s).2
      change (afterOffers _ offers).selectors = _
      rw [hrest]
      by_cases htakes : sel.Takes s
      · rw [(offer_of_takes htakes).2.1, accepted_cons_of_takes htakes, List.append_assoc,
          List.singleton_append]
      · rw [offer_of_not_takes htakes, accepted_cons_of_not_takes htakes]

/-! ## What is selected -/

/-- A selection is explicit exactly if it has a kind. -/
theorem isExplicit_eq (sel : Selection) : sel.isExplicit = sel.kind?.isSome := by
  cases sel <;> rfl

/-- **An explicit selection** selects what one of its selectors selects. -/
theorem selects_iff {sel : Selection} (hexplicit : sel.isExplicit = true) (position : Nat)
    (a : Attachment) :
    sel.selects position a = true ↔ ∃ s ∈ sel.selectors, s.selects position a = true := by
  cases sel with
  | all => cases hexplicit
  | indexes ns => simp [selects, selectors, Selector.selects]
  | titles ts => cases htitle : a.title <;> simp [selects, selectors, Selector.selects, htitle]
  | groups gs => cases hgroup : a.group <;> simp [selects, selectors, Selector.selects, hgroup]

/-- A selector that is offered alone selects what it selects. -/
theorem selects_afterOffers_singleton (s : Selector) (position : Nat) (a : Attachment) :
    (all.afterOffers [s]).selects position a = s.selects position a := by
  have hexplicit : (all.afterOffers [s]).isExplicit = true := by cases s <;> rfl
  have honly : (all.afterOffers [s]).selectors = [s] := by cases s <;> rfl
  rw [Bool.eq_iff_iff, selects_iff hexplicit, honly]
  simp

end Selection

/-! ## What ships -/

namespace Allocation

/-- The attachments that a selection selects, with their positions. -/
def selectedOf (selection : Selection) (attachments : List Attachment) : List (Attachment × Nat) :=
  attachments.zipIdx.filter fun p => selection.selects p.2 p.1

/-- **An explicit selection** is allocated under any budget, and charged nothing. -/
theorem of_explicit {selection : Selection} (hexplicit : selection.isExplicit = true)
    (attachments : List Attachment) (budget : Budget) :
    Allocation.of attachments selection budget = .ok
      ⟨attachments.zipIdx.map fun p => decisionBySelection selection p.1 p.2, 0, none⟩ := by
  rw [Allocation.of, if_pos hexplicit]

/-- Under an explicit selection an attachment ships exactly if it is selected. -/
theorem ships_decisionBySelection (selection : Selection) (a : Attachment) (position : Nat) :
    (decisionBySelection selection a position).verdict.ships = selection.selects position a := by
  cases hselects : selection.selects position a <;> simp [decisionBySelection, hselects, Verdict.ships]

/-- What ships are the positions of the attachments that are selected. -/
theorem shipped_explicit (selection : Selection) (attachments : List Attachment) (used : UInt64)
    (left : Option UInt64) :
    (Allocation.mk (attachments.zipIdx.map fun p => decisionBySelection selection p.1 p.2) used
      left).shipped = (selectedOf selection attachments).map Prod.snd := by
  simp only [shipped, List.filter_map, List.map_map, Function.comp_def, ships_decisionBySelection]
  rfl

/-- The attachments at these positions are those that are selected. -/
theorem filterMap_positions (selection : Selection) (attachments : List Attachment) :
    (((selectedOf selection attachments).map Prod.snd).filterMap fun i => attachments[i]?) =
      (selectedOf selection attachments).map Prod.fst := by
  have hat : ∀ p ∈ selectedOf selection attachments, attachments[p.2]? = some p.1 := fun p hp =>
    List.mem_zipIdx_iff_getElem?.mp (List.mem_filter.mp hp).1
  rw [List.filterMap_map, ← List.filterMap_eq_map]
  exact List.filterMap_congr hat

end Allocation

namespace Selection

/-- **Selectors offered one after the other, and what ships then.**  The first offer fixes the kind,
and a further one is taken exactly if it is of that kind.  One that is refused is named by its kind and
changes nothing.  The selection is explicit as soon as anything was offered.  An attachment is then
selected exactly if one of the selectors that were taken selects it alone; these attachments ship, in
the order of the list, whatever the budget is, and nothing is charged. -/
theorem offers_select (offers : List Selector) :
    (all.afterOffers offers).kind? = offers.head?.map Selector.kind ∧
    (∀ s, ((all.afterOffers offers).offer s).1 = .ok () ↔
      ∀ first, offers.head? = some first → s.kind = first.kind) ∧
    (∀ s, ((all.afterOffers offers).offer s).1 ≠ .ok () →
      ((all.afterOffers offers).offer s).1 = .error (.conflictingSelection s.kind) ∧
        all.afterOffers (offers ++ [s]) = all.afterOffers offers) ∧
    ((all.afterOffers offers).isExplicit = true ↔ offers ≠ []) ∧
    ((all.afterOffers offers).isExplicit = true →
      (∀ position a, (all.afterOffers offers).selects position a = true ↔
        ∃ s ∈ all.accepted offers, (all.afterOffers [s]).selects position a = true) ∧
      ∀ attachments budget, ∃ allocation : Allocation,
        Allocation.of attachments (all.afterOffers offers) budget = .ok allocation ∧
        allocation.shipped =
          (Allocation.selectedOf (all.afterOffers offers) attachments).map Prod.snd ∧
        allocation.pick attachments =
          (Allocation.selectedOf (all.afterOffers offers) attachments).map Prod.fst ∧
        allocation.bytesUsed = 0) := by
  have hkind : (all.afterOffers offers).kind? = offers.head?.map Selector.kind :=
    kind?_afterOffers all offers
  refine ⟨hkind, fun s => ?_, fun s hrefused => ?_, ?_, fun hexplicit => ⟨fun position a => ?_, ?_⟩⟩
  · rw [offer_eq_ok_iff, Takes, hkind]
    cases offers.head? <;> simp [eq_comm]
  · rw [ne_eq, offer_eq_ok_iff] at hrefused
    rw [afterOffers_concat, offer_of_not_takes hrefused]
    exact ⟨rfl, rfl⟩
  · rw [isExplicit_eq, hkind]
    cases offers <;> simp
  · have htaken : (all.afterOffers offers).selectors = all.accepted offers :=
      selectors_afterOffers all offers
    simp only [selects_iff hexplicit, htaken, selects_afterOffers_singleton]
  · intro attachments budget
    have hships := Allocation.shipped_explicit (all.afterOffers offers) attachments 0 none
    refine ⟨_, Allocation.of_explicit hexplicit attachments budget, hships, ?_, rfl⟩
    rw [Allocation.pick, hships, Allocation.filterMap_positions]

/-- Floor plans are offered, then a title, then films. -/
def plansTitleFilms : List Selector :=
  [.group .grundriss, .title "Küche", .group .film]

/-- A picture with that title and a floor plan, both large. -/
def kitchenAndPlan : List Attachment :=
  [⟨some "Küche", some .bild, .intern, none, none, 10000⟩,
    ⟨none, some .grundriss, .intern, none, none, 10000⟩]

/-- The title is refused, as any position is later, and of the two attachments the floor plan ships,
though the budget has no cap at all. -/
theorem plansTitleFilms_select :
    (all.afterOffers plansTitleFilms).kind? = some "group" ∧
      all.afterOffers (plansTitleFilms ++ [.index 0]) = all.afterOffers plansTitleFilms ∧
      ∃ allocation : Allocation,
        Allocation.of kitchenAndPlan (all.afterOffers plansTitleFilms) .unlimited =
          .ok allocation ∧ allocation.shipped = [1] ∧ allocation.bytesUsed = 0 := by
  obtain ⟨hkind, htaken, hrefused, hexplicit, hselects⟩ := offers_select plansTitleFilms
  have hconflict : ((all.afterOffers plansTitleFilms).offer (.index 0)).1 ≠ .ok () := by
    rw [ne_eq, htaken]
    decide
  obtain ⟨allocation, hof, hships, -, hcharged⟩ :=
    (hselects (hexplicit.mpr (List.cons_ne_nil _ _))).2 kitchenAndPlan .unlimited
  exact ⟨hkind, (hrefused _ hconflict).2, allocation, hof, hships, hcharged⟩

end Selection

end ListingQuery
