import ListingQuery.Engine
import ListingQuery.Proofs.Attachments.Shipping
import ListingQuery.Proofs.Sorting.OrderText

/-!
# Plans that were made

What a query has to pass to become a plan: keys that can be sorted by, and a budget that the
attachments of every listing can be allocated under.  So nothing that follows the sort can fail.

* `compile_isSound` says what has been checked;
* `attachmentsOf_eq` and `traverse_hitOf` are the attachments and the hits, without a failure;
* `compile_of_window` separates the paging from the other options.
-/

namespace ListingQuery

/-- A plan for attachments is unbudgeted, or it can be allocated by. -/
theorem AttachmentPlan.allocatable_of_ofOptions {options : Option AttachmentOptions}
    {defaultCap : Option UInt64} {o : AttachmentOptions}
    (h : AttachmentPlan.ofOptions options defaultCap = .ok (.budgeted o)) :
    o.selection.isExplicit = true ∨ o.budget.isLimited = true := by
  unfold AttachmentPlan.ofOptions at h
  cases options with
  | none =>
      cases defaultCap with
      | none => simp at h
      | some cap =>
          obtain rfl := AttachmentPlan.budgeted.inj (Except.ok.inj h)
          exact Or.inr rfl
  | some given =>
      simp only at h
      split at h
      · rename_i hexplicit
        obtain rfl := AttachmentPlan.budgeted.inj (Except.ok.inj h)
        exact Or.inl hexplicit
      · cases hvalid : (given.withDefaultCap defaultCap).budget.validate with
        | error e => simp [hvalid, Except.map] at h
        | ok _ =>
            simp only [hvalid, Except.map, Except.ok.injEq, AttachmentPlan.budgeted.injEq] at h
            subst h
            unfold Budget.validate at hvalid
            split at hvalid
            · rename_i hlimited
              exact Or.inr hlimited
            · cases hvalid

namespace Plan

variable {o : Options} {limits : Limits} {p : Plan}

/-- What has been checked of a plan: its keys can be sorted by, and the attachments of every listing
can be allocated. -/
structure IsSound (p : Plan) : Prop where
  sortable : ∀ k ∈ p.sort.keys, k.field.isSortable = true
  allocatable : ∀ o, p.attachments = some (.budgeted o) →
    o.selection.isExplicit = true ∨ o.budget.isLimited = true

/-- Where the filter, the keys and the attachments of a plan come from. -/
theorem compile_parts (h : compile o limits = .ok p) :
    readOr .always (Filter.read · limits) o.filter = .ok p.filter ∧
      readOr .unsorted SortOrder.read o.sort = .ok p.sort ∧
      p.attachments.isSome = p.includes.attachments ∧
      ∀ plan, p.attachments = some plan →
        ∃ options, AttachmentPlan.ofOptions options limits.byteCap = .ok plan := by
  unfold compile at h
  cases hfilter : readOr .always (Filter.read · limits) o.filter with
  | error e => simp [hfilter] at h
  | ok filter =>
  cases hsort : readOr .unsorted SortOrder.read o.sort with
  | error e => simp [hfilter, hsort] at h
  | ok sort =>
  cases hwindow : readOr .everything (Window.read · limits.pageSize) o.paging with
  | error e => simp [hfilter, hsort, hwindow] at h
  | ok window =>
  cases hoptions : readOr none (fun s => (AttachmentOptions.read s).map some) o.attachments with
  | error e => simp [hfilter, hsort, hwindow, hoptions] at h
  | ok options =>
    simp only [hfilter, hsort, hwindow, hoptions] at h
    split at h
    · rename_i hincluded
      cases hplan : AttachmentPlan.ofOptions options limits.byteCap with
      | error e => simp [hplan, Except.map] at h
      | ok plan =>
          simp only [hplan, Except.map, Except.ok.injEq] at h
          subst h
          exact ⟨rfl, rfl, hincluded.symm, fun _ hsome => ⟨options, Option.some.inj hsome ▸ hplan⟩⟩
    · rename_i hincluded
      obtain rfl := Except.ok.inj h
      exact ⟨rfl, rfl, (eq_false_of_ne_true hincluded).symm, fun _ hsome => by cases hsome⟩

/-- **What a query has to pass to become a plan.** -/
theorem compile_isSound (h : compile o limits = .ok p) : p.IsSound := by
  obtain ⟨-, hsort, -, hattachments⟩ := compile_parts h
  constructor
  · cases hsource : o.sort with
    | none =>
        rw [hsource] at hsort
        rw [← Except.ok.inj hsort]
        simp [SortOrder.unsorted]
    | some source =>
        rw [hsource] at hsort
        exact SortOrder.isSortable_of_read hsort
  · intro given hgiven
    obtain ⟨options, hplan⟩ := hattachments _ hgiven
    exact AttachmentPlan.allocatable_of_ofOptions hplan

/-! ## Hits of a plan that has been checked -/

/-- The positions of the attachments of a listing that ship, none where they cannot be allocated. -/
def positionsIn (p : Plan) (l : Listing) : List Nat :=
  match p.attachmentsOf l with
  | .ok positions => positions
  | .error _ => []

/-- The hit of a listing and its position. -/
def hit (p : Plan) (item : Listing × Nat) : Hit :=
  ⟨item.2, item.1, p.positionsIn item.1⟩

/-- The attachments of every listing can be chosen. -/
theorem attachmentsOf_eq (hp : p.IsSound) (l : Listing) :
    p.attachmentsOf l = .ok (p.positionsIn l) := by
  have hok : ∃ positions, p.attachmentsOf l = .ok positions := by
    unfold attachmentsOf
    cases hattachments : p.attachments with
    | none => exact ⟨_, rfl⟩
    | some plan =>
        cases plan with
        | unbudgeted => exact ⟨_, rfl⟩
        | budgeted o =>
            obtain ⟨a, ha⟩ := Allocation.exists_of (hp.allocatable o hattachments) l.anhaenge
            exact ⟨a.shipped, by simp [ha, Except.map]⟩
  obtain ⟨positions, hpositions⟩ := hok
  rw [positionsIn, hpositions]

/-- Which attachments they are depends on whether they are included, and budgeted. -/
theorem positionsIn_cases (hp : p.IsSound) (l : Listing) :
    p.attachments = none ∧ p.positionsIn l = [] ∨
    p.attachments = some .unbudgeted ∧ p.positionsIn l = List.range l.anhaenge.length ∨
    ∃ o a, p.attachments = some (.budgeted o) ∧
      Allocation.of l.anhaenge o.selection o.budget = .ok a ∧ p.positionsIn l = a.shipped := by
  have hpositions := attachmentsOf_eq hp l
  unfold attachmentsOf at hpositions
  cases hattachments : p.attachments with
  | none =>
      rw [hattachments] at hpositions
      exact Or.inl ⟨rfl, (Except.ok.inj hpositions).symm⟩
  | some plan =>
      rw [hattachments] at hpositions
      cases plan with
      | unbudgeted => exact Or.inr (Or.inl ⟨rfl, (Except.ok.inj hpositions).symm⟩)
      | budgeted o =>
          obtain ⟨a, ha⟩ := Allocation.exists_of (hp.allocatable o hattachments) l.anhaenge
          simp only [ha, Except.map, Except.ok.injEq] at hpositions
          exact Or.inr (Or.inr ⟨o, a, rfl, ha, hpositions.symm⟩)

/-- The attachments of a plan that has been checked never fail. -/
theorem traverse_hitOf (hp : p.IsSound) (items : List (Listing × Nat)) :
    QueryError.traverse p.hitOf items = .ok (items.map p.hit) := by
  apply traverse_of_ok
  intro item _
  rw [hitOf, attachmentsOf_eq hp]
  rfl

/-! ## Paging apart -/

/-- Paging that can be read changes the window of a plan and nothing else. -/
theorem compile_of_window {w : Window}
    (hw : readOr .everything (Window.read · limits.pageSize) o.paging = .ok w) :
    compile o limits =
      (compile { o with paging := none } limits).map fun p => { p with window := w } := by
  unfold compile
  simp only [hw]
  cases readOr .always (Filter.read · limits) o.filter with
  | error e => rfl
  | ok filter =>
  cases readOr .unsorted SortOrder.read o.sort with
  | error e => rfl
  | ok sort =>
  cases readOr none (fun s => (AttachmentOptions.read s).map some) o.attachments with
  | error e => rfl
  | ok options =>
    by_cases hincluded : ((o.includes.map Includes.read).getD .nothing).attachments = true
    · cases hplan : AttachmentPlan.ofOptions options limits.byteCap <;>
        simp [readOr, hincluded, hplan, Except.map]
    · simp [readOr, hincluded, Except.map]

end Plan

end ListingQuery
