import ListingQuery.Engine
import ListingQuery.Proofs.FirstFailure

/-!
# What a filter keeps

A filter keeps the items whose listings it evaluates to true on, in their order, if it can be
evaluated on all of them; else it fails with the first listing that it cannot be evaluated on.  The
filter that admits everything is no exception.
-/

namespace ListingQuery.Filter

variable {α : Type} {f : Filter} {listing : α → Listing} {items : List α}

/-- Does the filter evaluate to true on the listing? -/
def admits (f : Filter) (l : Listing) : Bool :=
  match f.evaluate l with
  | .ok true => true
  | _ => false

/-- A listing is admitted exactly if the filter evaluates to true on it. -/
theorem admits_iff {l : Listing} : f.admits l = true ↔ f.evaluate l = .ok true := by
  unfold admits
  split <;> simp_all

instance (f : Filter) (l : Listing) : Decidable (∃ verdict, f.evaluate l = .ok verdict) :=
  decidable_of_iff ((f.evaluate l).isOk = true) <| by
    cases f.evaluate l <;> simp [Except.isOk, Except.toBool]

/-- Where the filter has its verdicts, it keeps what it admits. -/
theorem keep_of_ok (h : ∀ a ∈ items, ∃ v, f.evaluate (listing a) = .ok v) :
    f.keep listing items = .ok (items.filter fun a => f.admits (listing a)) := by
  induction items with
  | nil => rfl
  | cons a items ih =>
      obtain ⟨v, hv⟩ := h a List.mem_cons_self
      have hrest := ih fun b hb => h b (List.mem_cons_of_mem _ hb)
      cases v <;> simp [keep, hv, hrest, admits]

/-- A filter fails with the first listing that it cannot be evaluated on. -/
theorem keep_eq_error_iff {e : QueryError} :
    f.keep listing items = .error e ↔ FirstFailure (fun a => f.evaluate (listing a)) items e := by
  induction items with
  | nil => simp [keep, not_firstFailure_nil]
  | cons a items ih =>
      rw [firstFailure_cons_iff, ← ih, keep]
      cases f.evaluate (listing a) with
      | error d => simp
      | ok v => cases f.keep listing items <;> simp

/-- To leave items as they are where everything is admitted is to evaluate the filter on them. -/
theorem run_eq_keep (f : Filter) (listing : α → Listing) (items : List α) :
    f.run listing items = f.keep listing items := by
  cases f with
  | always =>
      have hall : ∀ a ∈ items, ∃ v, always.evaluate (listing a) = .ok v := by
        intro a _
        exact ⟨true, rfl⟩
      have hfilter : items.filter (fun a => always.admits (listing a)) = items :=
        List.filter_eq_self.mpr fun a _ => admits_iff.mpr rfl
      rw [keep_of_ok hall, hfilter]
      rfl
  | test c => rfl
  | not g => rfl
  | and fs => rfl
  | or fs => rfl

/-- What the filter keeps, and how it fails. -/
theorem run_of_ok (h : ∀ a ∈ items, ∃ v, f.evaluate (listing a) = .ok v) :
    f.run listing items = .ok (items.filter fun a => f.admits (listing a)) := by
  rw [run_eq_keep, keep_of_ok h]

/-- A sieve fails exactly with the first item that the filter cannot be evaluated on. -/
theorem run_eq_error_iff {e : QueryError} :
    f.run listing items = .error e ↔ FirstFailure (fun a => f.evaluate (listing a)) items e := by
  rw [run_eq_keep, keep_eq_error_iff]

/-- What is kept was given, in the same order. -/
theorem sublist_of_run {kept : List α} (h : f.run listing items = .ok kept) :
    kept.Sublist items := by
  rcases firstFailure_or_all (fun a => f.evaluate (listing a)) items with hall | ⟨e, he⟩
  · rw [run_of_ok hall, Except.ok.injEq] at h
    rw [← h]
    exact List.filter_sublist
  · rw [run_eq_error_iff.mpr he] at h
    cases h

/-- A change to the items that the filter does not see can be made before or after. -/
theorem run_map {β : Type} {listing' : β → Listing} {g : α → β}
    (h : ∀ a, f.evaluate (listing' (g a)) = f.evaluate (listing a)) (items : List α) :
    f.run listing' (items.map g) = (f.run listing items).map (List.map g) := by
  rw [run_eq_keep, run_eq_keep]
  induction items with
  | nil => rfl
  | cons a items ih =>
      rw [List.map_cons, keep, keep, h a, ih]
      cases f.evaluate (listing a) with
      | error e => rfl
      | ok admitted =>
          cases f.keep listing items with
          | error e => rfl
          | ok kept => cases admitted <;> rfl

end ListingQuery.Filter
