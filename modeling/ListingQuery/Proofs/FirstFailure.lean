import ListingQuery.QueryError

/-!
# The first failure

A function that may fail is applied to a list from left to right.  It succeeds on every item, or
there is a first item on which it fails, and the failure of that item is the failure of all.

* `FirstFailure` says which failure it is, `firstFailure_or_all` that there is no third case;
* `traverse_eq_error_iff` and `traverse_of_ok` say it of `QueryError.traverse`;
* `traverse_map` and `traverse_result` move functions out of a traversal.
-/

namespace ListingQuery

variable {α β : Type} {f : α → Except QueryError β}

/-- The first item of a list on which the function fails, fails with this error. -/
def FirstFailure (f : α → Except QueryError β) (as : List α) (e : QueryError) : Prop :=
  ∃ before a after, as = before ++ a :: after ∧ (∀ b ∈ before, ∃ v, f b = .ok v) ∧ f a = .error e

theorem not_firstFailure_nil (e : QueryError) : ¬ FirstFailure f [] e := by
  rintro ⟨before, a, after, h, _⟩
  simp at h

/-- The first item fails, or it succeeds and the failure lies behind it. -/
theorem firstFailure_cons_iff {a : α} {as : List α} {e : QueryError} :
    FirstFailure f (a :: as) e ↔
      f a = .error e ∨ (∃ v, f a = .ok v) ∧ FirstFailure f as e := by
  constructor
  · rintro ⟨before, b, after, happend, hbefore, hb⟩
    cases before with
    | nil =>
        obtain ⟨rfl, rfl⟩ := List.cons.inj happend
        exact Or.inl hb
    | cons c before =>
        obtain ⟨rfl, rfl⟩ := List.cons.inj happend
        exact Or.inr ⟨hbefore _ List.mem_cons_self, before, b, after, rfl,
          fun d hd => hbefore d (List.mem_cons_of_mem _ hd), hb⟩
  · rintro (ha | ⟨ha, before, b, after, rfl, hbefore, hb⟩)
    · exact ⟨[], a, as, rfl, by simp, ha⟩
    · refine ⟨a :: before, b, after, rfl, ?_, hb⟩
      intro c hc
      rcases List.mem_cons.mp hc with rfl | hc
      · exact ha
      · exact hbefore c hc

/-- The function succeeds on every item, or there is a first failure. -/
theorem firstFailure_or_all (f : α → Except QueryError β) (as : List α) :
    (∀ a ∈ as, ∃ v, f a = .ok v) ∨ ∃ e, FirstFailure f as e := by
  induction as with
  | nil => exact Or.inl (by simp)
  | cons a as ih =>
      cases ha : f a with
      | error e => exact Or.inr ⟨e, firstFailure_cons_iff.mpr (Or.inl ha)⟩
      | ok v =>
          rcases ih with hall | ⟨e, he⟩
          · left
            intro b hb
            rcases List.mem_cons.mp hb with rfl | hb
            · exact ⟨v, ha⟩
            · exact hall b hb
          · exact Or.inr ⟨e, firstFailure_cons_iff.mpr (Or.inr ⟨⟨v, ha⟩, he⟩)⟩

/-- The first failure lies in the front of a list, or the front succeeds and it lies behind. -/
theorem firstFailure_append_iff {as bs : List α} {e : QueryError} :
    FirstFailure f (as ++ bs) e ↔
      FirstFailure f as e ∨ (∀ a ∈ as, ∃ v, f a = .ok v) ∧ FirstFailure f bs e := by
  induction as with
  | nil => simp [not_firstFailure_nil]
  | cons a as ih =>
      rw [List.cons_append, firstFailure_cons_iff, firstFailure_cons_iff, ih, List.forall_mem_cons,
        and_or_left, or_assoc, and_assoc]

/-- Where there is a failure, not every item succeeds. -/
theorem FirstFailure.not_all {as : List α} {e : QueryError} (h : FirstFailure f as e) :
    ¬ ∀ a ∈ as, ∃ v, f a = .ok v := by
  obtain ⟨before, a, after, rfl, _, ha⟩ := h
  intro hall
  obtain ⟨v, hv⟩ := hall a (by simp)
  rw [ha] at hv
  cases hv

/-- The first failure of a list of images is that of the composed function. -/
theorem firstFailure_map_iff {γ : Type} {g : γ → α} {cs : List γ} {e : QueryError} :
    FirstFailure f (cs.map g) e ↔ FirstFailure (fun c => f (g c)) cs e := by
  induction cs with
  | nil => simp [not_firstFailure_nil]
  | cons c cs ih => rw [List.map_cons, firstFailure_cons_iff, firstFailure_cons_iff, ih]

/-- What is made of the results does not matter. -/
theorem firstFailure_result_iff {γ : Type} (g : α → β → γ) {as : List α} {e : QueryError} :
    FirstFailure (fun a => (f a).map (g a)) as e ↔ FirstFailure f as e := by
  induction as with
  | nil => simp [not_firstFailure_nil]
  | cons a as ih =>
      rw [firstFailure_cons_iff, firstFailure_cons_iff, ih]
      cases f a <;> simp [Except.map]

/-- A traversal fails with the first failure. -/
theorem traverse_eq_error_iff {as : List α} {e : QueryError} :
    QueryError.traverse f as = .error e ↔ FirstFailure f as e := by
  induction as with
  | nil => simp [QueryError.traverse, not_firstFailure_nil]
  | cons a as ih =>
      rw [firstFailure_cons_iff, ← ih, QueryError.traverse]
      cases f a with
      | error d => simp
      | ok b => cases QueryError.traverse f as <;> simp

/-- There is one first failure. -/
theorem FirstFailure.unique {as : List α} {d e : QueryError} (hd : FirstFailure f as d)
    (he : FirstFailure f as e) : d = e := by
  rw [← traverse_eq_error_iff] at hd he
  exact Except.error.inj (hd.symm.trans he)

/-- A traversal of items that all succeed collects what they give. -/
theorem traverse_of_ok {g : α → β} {as : List α} (h : ∀ a ∈ as, f a = .ok (g a)) :
    QueryError.traverse f as = .ok (as.map g) := by
  induction as with
  | nil => rfl
  | cons a as ih =>
      have hrest := ih fun b hb => h b (List.mem_cons_of_mem _ hb)
      simp [QueryError.traverse, h a List.mem_cons_self, hrest]

/-- The traversal of images is that by the composed function. -/
theorem traverse_map {γ : Type} {g : γ → α} (cs : List γ) :
    QueryError.traverse f (cs.map g) = QueryError.traverse (fun c => f (g c)) cs := by
  induction cs with
  | nil => rfl
  | cons c cs ih => rw [List.map_cons, QueryError.traverse, QueryError.traverse, ih]

/-- What is made of the results can be made of all of them afterwards. -/
theorem traverse_result {γ : Type} (g : β → γ) (as : List α) :
    QueryError.traverse (fun a => (f a).map g) as = (QueryError.traverse f as).map (List.map g) := by
  induction as with
  | nil => rfl
  | cons a as ih =>
      rw [QueryError.traverse, QueryError.traverse, ih]
      cases f a with
      | error e => rfl
      | ok b => cases QueryError.traverse f as <;> rfl

/-- What a traversal gives comes from the items. -/
theorem exists_of_mem_traverse {as : List α} {bs : List β}
    (h : QueryError.traverse f as = .ok bs) {b : β} (hb : b ∈ bs) : ∃ a ∈ as, f a = .ok b := by
  induction as generalizing bs with
  | nil =>
      obtain rfl := Except.ok.inj h
      cases hb
  | cons a as ih =>
      rw [QueryError.traverse] at h
      cases ha : f a with
      | error e => simp [ha] at h
      | ok c =>
          cases has : QueryError.traverse f as with
          | error e => simp [ha, has] at h
          | ok cs =>
              simp only [ha, has, Except.ok.injEq] at h
              subst h
              rcases List.mem_cons.mp hb with rfl | hb
              · exact ⟨a, List.mem_cons_self, ha⟩
              · obtain ⟨d, hd, hdb⟩ := ih has hb
                exact ⟨d, List.mem_cons_of_mem _ hd, hdb⟩

end ListingQuery
