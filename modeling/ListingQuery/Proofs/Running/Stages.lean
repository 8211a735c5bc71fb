import Mathlib.Data.List.Perm.Subperm
import ListingQuery.Proofs.Running.Compiled
import ListingQuery.Proofs.Running.Sieve
import ListingQuery.Proofs.Sorting.Arrangement

/-!
# Stages

A run takes its items through the filter, the sort and the window, and skips those that would change
nothing.  What comes out of the filter is counted there, and where the filter is skipped it is counted
afterwards.  Skipped or not, it comes to the same: the three are applied one after the other, and the
count is the number of items that the filter admits.

* `Stage.IsHonest` is a stage that is right about itself, and `Stage.runAll_cons` the step over such a
  stage, taken or skipped;
* `Stage.runAll_counted` puts the steps together, with the count;
* `Plan.runBy_eq` is the run of a plan with any sorter, and `Plan.run_eq_bind` that of the program;
* `Plan.runStages_eq` says that skipping makes no difference, neither to the hits nor to the counters.
-/

namespace ListingQuery

open QueryError (andThen)

section Running

variable {m : Type → Type} [Monad m] [LawfulMonad m] {α β γ : Type}

namespace QueryError

/-- What has been given is gone on with. -/
@[simp] theorem andThen_ok (a : α) (next : α → m (Except QueryError β)) :
    andThen (pure (.ok a)) next = next a := by
  simp [andThen]

/-- A failure stays. -/
@[simp] theorem andThen_error (e : QueryError) (next : α → m (Except QueryError β)) :
    andThen (pure (.error e)) next = pure (.error e) := by
  simp [andThen]

/-- To go on twice is to go on with both steps. -/
theorem andThen_assoc (x : m (Except QueryError α)) (next : α → m (Except QueryError β))
    (last : β → m (Except QueryError γ)) :
    andThen (andThen x next) last = andThen x fun a => andThen (next a) last := by
  simp only [andThen, bind_assoc]
  congr 1
  funext r
  cases r with
  | error e => simp
  | ok a => rfl

/-- To go on with a result of what has been given is to take the result. -/
theorem andThen_map {x : m (Except QueryError α)} {next : α → m (Except QueryError β)} {f : α → β}
    (h : ∀ a, next a = pure (.ok (f a))) : andThen x next = Except.map f <$> x := by
  rw [andThen, ← bind_pure_comp]
  congr 1
  funext r
  cases r with
  | error e => rfl
  | ok a => exact h a

/-- Where nothing but failures can happen, to go on is to bind. -/
theorem andThen_id (x : Except QueryError α) (next : α → Except QueryError β) :
    andThen (m := Id) x next = x.bind next := by
  cases x <;> rfl

end QueryError

namespace Stage

variable {s : Stage m α} {stages : List (Stage m α)}

/-- A stage that says so changes nothing. -/
def IsHonest (s : Stage m α) : Prop :=
  s.isNoop = true → ∀ items, s.run items = pure (.ok items)

/-- **One step.**  Behind a stage that does not count, items are held as the stage leaves them, whether
it is skipped or not. -/
theorem runAll_cons (hs : s.IsHonest) (hname : s.name ≠ "sieve") (stream : Stream α) :
    runAll (s :: stages) stream =
      andThen (s.run stream.items) fun items => runAll stages ⟨items, stream.matched⟩ := by
  rw [runAll]
  cases hnoop : s.isNoop with
  | true => simp [hs hnoop]
  | false => simp [hname]

/-- **The three stages.**  Whichever of them are skipped, the filter, the sort and the window are
applied, and the items that the filter leaves are counted, by the run if the filter was skipped. -/
theorem runAll_counted (sieve sort page : Stage m α) (hsieve : sieve.IsHonest)
    (hsort : sort.IsHonest) (hpage : page.IsHonest)
    (hnames : [sieve, sort, page].map Stage.name = ["sieve", "sort", "page"]) (items : List α)
    (finish : Stream α → m (Except QueryError β)) :
    (andThen (runAll [sieve, sort, page] ⟨items, 0⟩) fun stream =>
        finish ⟨stream.items, if sieve.isNoop then items.length else stream.matched⟩) =
      andThen (sieve.run items) fun matched =>
        andThen (sort.run matched) fun sorted =>
          andThen (page.run sorted) fun cut => finish ⟨cut, matched.length⟩ := by
  simp only [List.map_cons, List.map_nil, List.cons.injEq, and_true] at hnames
  obtain ⟨hsieveName, hsortName, hpageName⟩ := hnames
  have hrest : ∀ stream : Stream α, runAll [sort, page] stream =
      andThen (sort.run stream.items) fun sorted =>
        andThen (page.run sorted) fun cut => pure (.ok (Stream.mk cut stream.matched)) := by
    intro stream
    rw [runAll_cons hsort (by simp [hsortName])]
    congr 1
    funext sorted
    rw [runAll_cons hpage (by simp [hpageName])]
    rfl
  cases hnoop : sieve.isNoop with
  | true =>
      rw [runAll, if_pos hnoop, hrest, hsieve hnoop]
      simp [QueryError.andThen_assoc]
  | false =>
      rw [runAll, if_neg (by simp [hnoop])]
      simp [hsieveName, hrest, QueryError.andThen_assoc]

end Stage

end Running

/-! ## The stages of a plan -/

section Shortcuts

variable {α : Type} (listing : α → Listing) (items : List α)

/-- A filter that admits everything is right about itself. -/
theorem Filter.run_of_isTrivial {f : Filter} (h : f.isTrivial = true) :
    f.run listing items = .ok items := by
  rw [run, if_pos h]

/-- A window without a limit is right about itself. -/
theorem Window.run_of_isNoop {w : Window} (h : w.isNoop = true) : w.run items = items := by
  rw [run, Option.isNone_iff_eq_none.mp h]

end Shortcuts

namespace Plan

variable {p : Plan} {listings : List Listing}

/-- **The run of a plan, with any sorter**, is its filter, its sort and its window, and then the
attachments of every listing that is left. -/
theorem runBy_eq {m : Type → Type} [Monad m] [LawfulMonad m] (sorter : Sorter m) (p : Plan)
    (listings : List Listing) :
    p.runBy sorter listings =
      andThen (pure (p.filter.run Prod.fst listings.zipIdx)) fun matched =>
        andThen (p.sort.runBy sorter Prod.fst matched) fun sorted =>
          pure (p.outcomeOf listings.length ⟨p.window.run sorted, matched.length⟩) := by
  have hcounted := Stage.runAll_counted (m := m)
    ⟨"sieve", p.filter.isTrivial, fun items => pure (p.filter.run Prod.fst items)⟩
    ⟨"sort", p.sort.keys.isEmpty, p.sort.runBy sorter Prod.fst⟩
    ⟨"page", p.window.isNoop, fun items => pure (.ok (p.window.run items))⟩
    (fun h items => congrArg pure (Filter.run_of_isTrivial Prod.fst items h))
    (fun h items => SortOrder.runBy_of_isEmpty h sorter Prod.fst items)
    (fun h items => congrArg (pure ∘ Except.ok) (Window.run_of_isNoop items h))
    rfl listings.zipIdx fun stream => pure (p.outcomeOf listings.length stream)
  simpa [runBy, stagesBy] using hcounted

/-- **The run of a plan** is its filter, its sort and its window, and then the attachments of every
listing that is left. -/
theorem run_eq_bind (p : Plan) (listings : List Listing) :
    p.run listings = (p.filter.run Prod.fst listings.zipIdx).bind fun matched =>
      (p.sort.run Prod.fst matched).bind fun sorted =>
        p.outcomeOf listings.length ⟨p.window.run sorted, matched.length⟩ := by
  rw [run, runBy_eq]
  cases p.filter.run Prod.fst listings.zipIdx with
  | error e => rfl
  | ok matched =>
      simp only [QueryError.andThen_ok, Except.bind, SortOrder.run]
      exact QueryError.andThen_id _ _

/-! ## Skipping -/

/-- The stages of a plan without their shortcuts: each does its work where it is not skipped, and none
is skipped unless that is allowed. -/
def stagesInFull (p : Plan) (skipping : Bool) : List (Stage Id (Listing × Nat)) :=
  [⟨"sieve", skipping && p.filter.isTrivial, p.filter.keep Prod.fst⟩,
    ⟨"sort", skipping && p.sort.keys.isEmpty, p.sort.sortItems Prod.fst⟩,
    ⟨"page", skipping && p.window.isNoop, fun items => .ok (p.window.run items)⟩]

/-- Runs a plan over these stages. -/
def runStages (p : Plan) (skipping : Bool) (listings : List Listing) : Except QueryError Outcome :=
  Id.run <| andThen (Stage.runAll (p.stagesInFull skipping) ⟨listings.zipIdx, 0⟩) fun stream =>
    p.outcomeOf listings.length
      ⟨stream.items, if skipping && p.filter.isTrivial then listings.length else stream.matched⟩

/-- A filter that may be skipped and is right to say so. -/
theorem keep_of_skipped {skipping : Bool} (h : (skipping && p.filter.isTrivial) = true)
    (items : List (Listing × Nat)) : p.filter.keep Prod.fst items = .ok items := by
  rw [← Filter.run_eq_keep]
  exact Filter.run_of_isTrivial _ items (Bool.and_eq_true_iff.mp h).2

/-- A sort that may be skipped and is right to say so. -/
theorem sortItems_of_skipped {skipping : Bool} (h : (skipping && p.sort.keys.isEmpty) = true)
    (items : List (Listing × Nat)) : p.sort.sortItems Prod.fst items = .ok items := by
  rw [← SortOrder.run_eq_sortItems]
  exact SortOrder.runBy_of_isEmpty (Bool.and_eq_true_iff.mp h).2 .merge _ items

/-- **Skipping makes no difference.**  Whether the stages that would change nothing are skipped, or all
three do their work, a run gives the same hits and the same counters, and fails alike. -/
theorem runStages_eq (p : Plan) (skipping : Bool) (listings : List Listing) :
    p.runStages skipping listings = p.run listings := by
  have hcounted := Stage.runAll_counted (m := Id)
    ⟨"sieve", skipping && p.filter.isTrivial, p.filter.keep Prod.fst⟩
    ⟨"sort", skipping && p.sort.keys.isEmpty, p.sort.sortItems Prod.fst⟩
    ⟨"page", skipping && p.window.isNoop, fun items => .ok (p.window.run items)⟩
    keep_of_skipped sortItems_of_skipped
    (fun h items => congrArg Except.ok (Window.run_of_isNoop items (Bool.and_eq_true_iff.mp h).2))
    rfl listings.zipIdx (p.outcomeOf listings.length)
  rw [List.length_zipIdx] at hcounted
  rw [runStages, stagesInFull, hcounted, run_eq_bind, Filter.run_eq_keep]
  simp only [SortOrder.run_eq_sortItems]
  refine (QueryError.andThen_id _ _).trans (congrArg _ ?_)
  funext matched
  exact QueryError.andThen_id _ _

/-! ## Hits -/

/-- The listings in the order of the plan, before the window. -/
def lineup (p : Plan) (listings : List Listing) : Except QueryError (List (Listing × Nat)) :=
  (p.filter.run Prod.fst listings.zipIdx).bind (p.sort.run Prod.fst)

/-- What is lined up are listings of the input, each at most once. -/
theorem subperm_lineup {listings : List Listing} {sorted : List (Listing × Nat)}
    (h : p.lineup listings = .ok sorted) : sorted.Subperm listings.zipIdx := by
  unfold lineup at h
  cases hmatched : p.filter.run Prod.fst listings.zipIdx with
  | error e =>
      rw [hmatched] at h
      cases h
  | ok matched =>
      rw [hmatched] at h
      exact (SortOrder.perm_of_run h).subperm.trans (Filter.sublist_of_run hmatched).subperm

/-- The hits of a run are those of the page of the lineup. -/
theorem hits_eq_bind (p : Plan) (listings : List Listing) :
    (p.run listings).map Outcome.hits =
      (p.lineup listings).bind fun sorted => QueryError.traverse p.hitOf (p.window.run sorted) := by
  rw [run_eq_bind, lineup]
  cases p.filter.run Prod.fst listings.zipIdx with
  | error e => rfl
  | ok matched =>
      simp only [Except.bind]
      cases p.sort.run Prod.fst matched with
      | error e => rfl
      | ok sorted =>
          simp only [outcomeOf]
          cases QueryError.traverse p.hitOf (p.window.run sorted) <;> rfl

/-- The run of a plan that has been checked, in which the attachments cannot fail. -/
theorem run_eq (hp : p.IsSound) (listings : List Listing) :
    p.run listings = (p.filter.run Prod.fst listings.zipIdx).bind fun matched =>
      (p.sort.run Prod.fst matched).map fun sorted =>
        ⟨(p.window.run sorted).map p.hit, listings.length, matched.length⟩ := by
  rw [run_eq_bind]
  cases p.filter.run Prod.fst listings.zipIdx with
  | error e => rfl
  | ok matched =>
      simp only [Except.bind]
      cases p.sort.run Prod.fst matched with
      | error e => rfl
      | ok sorted =>
          simp only [outcomeOf, traverse_hitOf hp]
          rfl

/-- The hits of a plan that has been checked. -/
theorem hits_eq (hp : p.IsSound) (listings : List Listing) :
    (p.run listings).map Outcome.hits =
      (p.lineup listings).map fun sorted => (p.window.run sorted).map p.hit := by
  rw [hits_eq_bind]
  cases p.lineup listings with
  | error e => rfl
  | ok sorted => exact traverse_hitOf hp _

end Plan

end ListingQuery
