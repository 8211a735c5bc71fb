import Mathlib.Algebra.GroupWithZero.Nat
import Mathlib.Algebra.Order.BigOperators.Group.List
import ListingQuery.Manifest
import ListingQuery.Proofs.Filter.Reader
import ListingQuery.Proofs.Running.Stages
import ListingQuery.Proofs.Sorting.AnySort
import ListingQuery.Proofs.Window

/-!
# What a run delivers

A run that succeeds delivers the listings that the filter evaluates to true on, in the order of the
keys, and of these the page; with every listing the attachments that ship; and with the hits a
manifest whose counters are what they say.  `Plan.Delivers` is all this.  A run that fails has a
listing that the filter cannot be evaluated on, or else a listing that is admitted and that a key has
no value in; `Plan.Fails` says which of them is reported.

* `ships_hit` is about the attachments of one hit;
* `runBy_of_evaluates` reduces a run to its sort, `run_eq_error_iff` to the failures, and `exists_run`
  is where there is none;
* `MeetsNaN` is a sort that meets NaN, and `runBy_eq_run` says that all stable sorts give the same
  where it does not;
* `delivers_of_arranged` puts the parts together, and `run_delivers` is the result.
-/

namespace ListingQuery

/-- Listings with attachments that a memory with addresses of 64 bits has room for: there are fewer
of them than addresses. -/
def Held (listings : List Listing) : Prop :=
  listings.length + (listings.map fun l => l.anhaenge.length).sum < UInt64.size

instance (listings : List Listing) : Decidable (Held listings) :=
  inferInstanceAs (Decidable (_ < _))

/-- The listing of a hit and its position. -/
def Hit.item (h : Hit) : Listing × Nat := (h.listing, h.position)

namespace Plan

/-- The listings that the filter evaluates to true on, each with its position in the input. -/
def admitted (p : Plan) (listings : List Listing) : List (Listing × Nat) :=
  listings.zipIdx.filter fun item => p.filter.admits item.1

/-- These attachments of a listing ship: none where they are not included, all where no budget was
set, and under a budget those with a decision of the allocation to ship, in the order of the list. -/
def Ships (p : Plan) (l : Listing) (shipped : List Attachment) : Prop :=
  match p.attachments with
  | none => shipped = []
  | some .unbudgeted => shipped = l.anhaenge
  | some (.budgeted o) => ∃ a, Allocation.of l.anhaenge o.selection o.budget = .ok a ∧
      shipped = ((l.anhaenge.zip a.decisions).filter fun d => d.2.verdict.ships).map Prod.fst

/-- The counters of a manifest are right for a run. -/
structure Counts (p : Plan) (listings : List Listing) (out : Outcome) (m : Manifest) : Prop where
  recordsIn : m.recordsIn.toNat = listings.length
  recordsMatched : m.recordsMatched.toNat = (p.admitted listings).length
  recordsOut : m.recordsOut.toNat = out.hits.length
  hits : out.hits.length = p.window.count (p.admitted listings).length
  attachmentsOut : m.attachmentsOut.toNat = (out.hits.map fun h => h.shipped.length).sum

/-- What a run delivers: the page of the admitted listings in their only arrangement, each from its
place in the input and none from the same place as another, with the attachments that ship, and
counters that are right. -/
structure Delivers (p : Plan) (listings : List Listing) (out : Outcome) : Prop where
  page : ∃ sorted, SortOrder.Arranged p.sort.keys Prod.fst (p.admitted listings) sorted ∧
    (∀ other, SortOrder.Arranged p.sort.keys Prod.fst (p.admitted listings) other →
      sorted = other) ∧
    out.hits.map Hit.item = p.window.cut sorted
  positions : (out.hits.map Hit.position).Nodup
  found : ∀ h ∈ out.hits, listings[h.position]? = some h.listing
  attachments : ∀ h ∈ out.hits, p.Ships h.listing h.shipped
  counts : ∀ (r : Run) (started finished : UInt64), r.outcome = out →
    p.Counts listings out (Manifest.ofRun r started finished)

/-- How a run fails: with the first listing that the filter cannot be evaluated on, or where there is
none with the first admitted listing and its first key without a value. -/
def Fails (p : Plan) (listings : List Listing) (e : QueryError) : Prop :=
  FirstFailure (fun l => p.filter.evaluate l) listings e ∨
    (∀ l ∈ listings, ∃ verdict, p.filter.evaluate l = .ok verdict) ∧
      SortOrder.FirstFault p.sort.keys ((p.admitted listings).map Prod.fst) e

variable {p : Plan} {listings : List Listing}

/-- Where the filter can be evaluated on every listing, a run fails by its keys alone. -/
theorem fails_iff_of_evaluates {e : QueryError}
    (hall : ∀ l ∈ listings, ∃ verdict, p.filter.evaluate l = .ok verdict) :
    p.Fails listings e ↔
      SortOrder.FirstFault p.sort.keys ((p.admitted listings).map Prod.fst) e := by
  have hnone : ¬ FirstFailure (fun l => p.filter.evaluate l) listings e :=
    fun h => h.not_all hall
  rw [Fails, or_iff_right hnone, and_iff_right hall]

/-- Where the filter fails first, a run fails with that. -/
theorem fails_iff_of_firstFailure {d e : QueryError}
    (hd : FirstFailure (fun l => p.filter.evaluate l) listings d) :
    p.Fails listings e ↔ d = e := by
  constructor
  · rintro (he | ⟨hall, _⟩)
    · exact hd.unique he
    · exact absurd hall hd.not_all
  · rintro rfl
    exact Or.inl hd

/-! ## Admitted listings -/

/-- No more listings are admitted than there are. -/
theorem length_admitted_le (p : Plan) (listings : List Listing) :
    (p.admitted listings).length ≤ listings.length := by
  have hfilter := List.length_filter_le (fun item => p.filter.admits item.1) listings.zipIdx
  rwa [List.length_zipIdx] at hfilter

/-- What is admitted was given, and the filter evaluates to true on it. -/
theorem given_of_mem_admitted {item : Listing × Nat} (h : item ∈ p.admitted listings) :
    item.1 ∈ listings ∧ p.filter.evaluate item.1 = .ok true := by
  obtain ⟨hinput, hadmits⟩ := List.mem_filter.mp h
  exact ⟨List.fst_mem_of_mem_zipIdx hinput, Filter.admits_iff.mp hadmits⟩

/-- What is admitted of listings without NaN is without NaN. -/
theorem hasNoNaN_admitted (hnumbers : ∀ l ∈ listings, l.HasNoNaN) :
    ∀ item ∈ p.admitted listings, item.1.HasNoNaN :=
  fun item hitem => hnumbers item.1 (given_of_mem_admitted hitem).1

/-- The sort meets NaN: that is the value of a key in a listing that the filter admits. -/
def MeetsNaN (p : Plan) (listings : List Listing) : Prop :=
  ∃ k ∈ p.sort.keys, ∃ l ∈ listings, p.filter.evaluate l = .ok true ∧ k.IsNaNIn l

/-- Over listings without NaN the sort does not meet it. -/
theorem not_meetsNaN (hp : p.IsSound) (hnumbers : ∀ l ∈ listings, l.HasNoNaN) :
    ¬ p.MeetsNaN listings := by
  rintro ⟨k, hk, l, hl, _, hnan⟩
  exact SortKey.not_isNaNIn (hp.sortable k hk) (hnumbers l hl) hnan

/-- A sort that does not meet NaN finds none in the admitted listings. -/
theorem not_isNaNIn_admitted (hnan : ¬ p.MeetsNaN listings) :
    ∀ item ∈ p.admitted listings, ∀ k ∈ p.sort.keys, ¬ k.IsNaNIn item.1 := by
  intro item hitem k hk hvalue
  obtain ⟨hl, hadmits⟩ := given_of_mem_admitted hitem
  exact hnan ⟨k, hk, item.1, hl, hadmits, hvalue⟩

/-- No two admitted listings have one position. -/
theorem nodup_positions_admitted (p : Plan) (listings : List Listing) :
    ((p.admitted listings).map Prod.snd).Nodup := by
  have hinput : (listings.zipIdx.map Prod.snd).Nodup := by
    rw [List.zipIdx_map_snd]
    exact List.nodup_range'
  exact hinput.sublist (List.filter_sublist.map _)

/-! ## One hit -/

/-- The attachments of a hit ship. -/
theorem ships_hit (hp : p.IsSound) (item : Listing × Nat) :
    p.Ships item.1 (p.hit item).shipped := by
  unfold Ships Hit.shipped hit
  rcases positionsIn_cases hp item.1 with ⟨hnone, hpositions⟩ | ⟨hall, hpositions⟩ |
    ⟨o, a, hbudgeted, ha, hpositions⟩
  · simp [hnone, hpositions]
  · simp [hall, hpositions, filterMap_getElem?_range]
  · simp only [hbudgeted, hpositions]
    exact ⟨a, ha, Allocation.pick_eq ha⟩

/-- A hit has a position for every attachment that ships. -/
theorem length_shipped_hit (hp : p.IsSound) (item : Listing × Nat) :
    (p.hit item).shipped.length = (p.hit item).attachments.length := by
  unfold Hit.shipped hit
  rcases positionsIn_cases hp item.1 with ⟨_, hpositions⟩ | ⟨_, hpositions⟩ |
    ⟨o, a, _, ha, hpositions⟩
  · simp [hpositions]
  · simp [hpositions, filterMap_getElem?_range]
  · rw [hpositions]
    exact Allocation.length_pick ha

theorem length_shipped_hit_le (hp : p.IsSound) (item : Listing × Nat) :
    (p.hit item).shipped.length ≤ item.1.anhaenge.length := by
  have hships := ships_hit hp item
  unfold Ships at hships
  cases hattachments : p.attachments with
  | none => simp_all
  | some plan =>
      cases plan with
      | unbudgeted => simp_all
      | budgeted o =>
          simp only [hattachments] at hships
          obtain ⟨a, _, hshipped⟩ := hships
          have hfilter := List.length_filter_le (fun d => d.2.verdict.ships)
            (item.1.anhaenge.zip a.decisions)
          rw [hshipped, List.length_map]
          rw [List.length_zip] at hfilter
          omega

/-! ## The whole run -/

section AnySorter

variable {m : Type → Type} [Monad m] [LawfulMonad m]

/-- Where the filter can be evaluated on every listing, a run sorts those that it admits, and goes on
with what the sorter gives. -/
theorem runBy_of_evaluates (hp : p.IsSound) (sorter : Sorter m)
    (hevaluates : ∀ l ∈ listings, ∃ verdict, p.filter.evaluate l = .ok verdict) :
    p.runBy sorter listings =
      (Except.map fun sorted =>
        ⟨(p.window.run sorted).map p.hit, listings.length, (p.admitted listings).length⟩) <$>
          p.sort.runBy sorter Prod.fst (p.admitted listings) := by
  have hitems : ∀ item ∈ listings.zipIdx, ∃ verdict, p.filter.evaluate item.1 = .ok verdict := by
    intro item hitem
    exact hevaluates item.1 (List.fst_mem_of_mem_zipIdx hitem)
  rw [runBy_eq, Filter.run_of_ok hitems, QueryError.andThen_ok]
  apply QueryError.andThen_map
  intro sorted
  simp only [outcomeOf, traverse_hitOf hp]
  rfl

/-- A listing that the filter cannot be evaluated on ends a run before anything is sorted. -/
theorem runBy_of_firstFailure (sorter : Sorter m) {e : QueryError}
    (he : FirstFailure (fun l => p.filter.evaluate l) listings e) :
    p.runBy sorter listings = pure (.error e) := by
  rw [← List.zipIdx_map_fst 0 listings, firstFailure_map_iff] at he
  rw [runBy_eq, Filter.run_eq_error_iff.mpr he, QueryError.andThen_error]

end AnySorter

/-- Where the filter can be evaluated on every listing, a run sorts those that it admits. -/
theorem run_of_evaluates (hp : p.IsSound)
    (hevaluates : ∀ l ∈ listings, ∃ verdict, p.filter.evaluate l = .ok verdict) :
    p.run listings = (p.sort.run Prod.fst (p.admitted listings)).map fun sorted =>
      ⟨(p.window.run sorted).map p.hit, listings.length, (p.admitted listings).length⟩ :=
  runBy_of_evaluates hp .merge hevaluates

/-- A listing that the filter cannot be evaluated on ends a run. -/
theorem run_of_firstFailure {e : QueryError}
    (he : FirstFailure (fun l => p.filter.evaluate l) listings e) : p.run listings = .error e :=
  runBy_of_firstFailure .merge he

/-- **All stable sorts are one**, unless they meet NaN.  A run with any of them is that of the
program. -/
theorem runBy_eq_run {sorter : Sorter Option} (hsorter : sorter.IsStable) (hp : p.IsSound)
    (hnan : ¬ p.MeetsNaN listings) : p.runBy sorter listings = some (p.run listings) := by
  rcases firstFailure_or_all (fun l => p.filter.evaluate l) listings with hall | ⟨d, hd⟩
  · rw [runBy_of_evaluates hp sorter hall, run_of_evaluates hp hall,
      SortOrder.runBy_eq_run hsorter hp.sortable (not_isNaNIn_admitted hnan)]
    rfl
  · rw [runBy_of_firstFailure sorter hd, run_of_firstFailure hd]
    rfl

/-- What a run gives can be computed by insertion sort. -/
theorem run_of_insertion (hp : p.IsSound) (hnumbers : ∀ l ∈ listings, l.HasNoNaN) {out : Outcome}
    (h : p.runBy .insertion listings = some (.ok out)) : p.run listings = .ok out := by
  have hrun := runBy_eq_run Sorter.isStable_insertion hp (not_meetsNaN hp hnumbers)
  exact Option.some.inj (hrun.symm.trans h)

/-- **How a run fails.** -/
theorem run_eq_error_iff (hp : p.IsSound) {e : QueryError} :
    p.run listings = .error e ↔ p.Fails listings e := by
  rcases firstFailure_or_all (fun l => p.filter.evaluate l) listings with hall | ⟨d, hd⟩
  · rw [run_of_evaluates hp hall, fails_iff_of_evaluates hall, ← SortOrder.run_eq_error_iff]
    cases p.sort.run Prod.fst (p.admitted listings) <;> simp [Except.map]
  · rw [run_of_firstFailure hd, fails_iff_of_firstFailure hd, Except.error.injEq]

/-- **How a run succeeds**: the filter can be evaluated on every listing, and every key has a value in
those that it admits. -/
theorem exists_run (hp : p.IsSound)
    (hevaluates : ∀ l ∈ listings, ∃ verdict, p.filter.evaluate l = .ok verdict)
    (hvalues : ∀ item ∈ p.admitted listings, SortOrder.HasValues p.sort.keys item.1) :
    ∃ out, p.run listings = .ok out := by
  rw [run_of_evaluates hp hevaluates, SortOrder.run_eq_sortItems,
    SortOrder.sortItems_of_hasValues hvalues]
  exact ⟨_, rfl⟩

/-- The items of a part of the admitted listings are listings of the input. -/
theorem sum_attachments_le {items sorted : List (Listing × Nat)} (hitems : items.Sublist sorted)
    (hsorted : sorted.Perm (p.admitted listings)) :
    (items.map fun item => item.1.anhaenge.length).sum ≤
      (listings.map fun l => l.anhaenge.length).sum := by
  have hpart : (items.map fun item => item.1.anhaenge.length).sum ≤
      (sorted.map fun item => item.1.anhaenge.length).sum :=
    (hitems.map _).sum_le_sum fun _ _ => Nat.zero_le _
  have hperm : (sorted.map fun item => item.1.anhaenge.length).sum =
      ((p.admitted listings).map fun item => item.1.anhaenge.length).sum :=
    (hsorted.map _).sum_eq
  have hadmitted : ((p.admitted listings).map fun item => item.1.anhaenge.length).sum ≤
      (listings.zipIdx.map fun item => item.1.anhaenge.length).sum :=
    (List.filter_sublist.map _).sum_le_sum fun _ _ => Nat.zero_le _
  have hall : (listings.zipIdx.map fun item => item.1.anhaenge.length) =
      listings.map fun l => l.anhaenge.length := by
    rw [← List.zipIdx_map_fst 0 listings, List.map_map, List.zipIdx_map_fst]
    rfl
  rw [hall] at hadmitted
  omega

/-- The hits have no more attachments than the listings of the input. -/
theorem sum_shipped_le (hp : p.IsSound) {items sorted : List (Listing × Nat)}
    (hitems : items.Sublist sorted) (hsorted : sorted.Perm (p.admitted listings)) :
    ((items.map p.hit).map fun h => h.shipped.length).sum ≤
      (listings.map fun l => l.anhaenge.length).sum := by
  have hships : ((items.map p.hit).map fun h => h.shipped.length).sum ≤
      (items.map fun item => item.1.anhaenge.length).sum := by
    rw [List.map_map]
    exact List.sum_le_sum fun item _ => length_shipped_hit_le hp item
  exact hships.trans (sum_attachments_le hitems hsorted)

/-- The positions of hits are counted. -/
theorem attachmentsOut_map_hit (hp : p.IsSound) (items : List (Listing × Nat)) (n m : Nat) :
    (Outcome.mk (items.map p.hit) n m).attachmentsOut =
      ((items.map p.hit).map fun h => h.shipped.length).sum := by
  unfold Outcome.attachmentsOut
  induction items with
  | nil => rfl
  | cons item items ih => simp [← length_shipped_hit hp item, ih]

/-- **The counters of a run are right.** -/
theorem counts_of_perm (hp : p.IsSound) (hheld : Held listings) {sorted : List (Listing × Nat)}
    (hsorted : sorted.Perm (p.admitted listings)) (r : Run) (started finished : UInt64)
    (hr : r.outcome =
      ⟨(p.window.cut sorted).map p.hit, listings.length, (p.admitted listings).length⟩) :
    p.Counts listings
      ⟨(p.window.cut sorted).map p.hit, listings.length, (p.admitted listings).length⟩
      (Manifest.ofRun r started finished) := by
  obtain ⟨planDigest, outcome, outcomeDigest⟩ := r
  obtain rfl := hr
  unfold Held at hheld
  have hmatched := length_admitted_le p listings
  have hlength : (p.window.cut sorted).length = p.window.count (p.admitted listings).length := by
    rw [Window.length_cut, hsorted.length_eq]
  have hcount := Window.count_le p.window (p.admitted listings).length
  have hsum := sum_shipped_le hp (Window.cut_sublist p.window sorted) hsorted
  constructor
  · change (UInt64.ofNat listings.length).toNat = listings.length
    exact UInt64.toNat_ofNat_of_lt' (by omega)
  · change (UInt64.ofNat (p.admitted listings).length).toNat = (p.admitted listings).length
    exact UInt64.toNat_ofNat_of_lt' (by omega)
  · change (UInt64.ofNat ((p.window.cut sorted).map p.hit).length).toNat = _
    rw [List.length_map, hlength]
    exact UInt64.toNat_ofNat_of_lt' (by omega)
  · rw [List.length_map, hlength]
  · change (UInt64.ofNat (Outcome.attachmentsOut _)).toNat = _
    rw [attachmentsOut_map_hit hp]
    exact UInt64.toNat_ofNat_of_lt' (by omega)

/-- What comes out of the sort is delivered, page by page. -/
theorem delivers_of_arranged (hp : p.IsSound) (hheld : Held listings)
    {sorted : List (Listing × Nat)}
    (hsorted : SortOrder.Arranged p.sort.keys Prod.fst (p.admitted listings) sorted)
    (hunique : ∀ other, SortOrder.Arranged p.sort.keys Prod.fst (p.admitted listings) other →
      sorted = other) :
    p.Delivers listings
      ⟨(p.window.cut sorted).map p.hit, listings.length, (p.admitted listings).length⟩ := by
  have hmem : ∀ item ∈ p.window.cut sorted, item ∈ listings.zipIdx := by
    intro item hitem
    have hadmitted := hsorted.perm.mem_iff.mp ((Window.cut_sublist _ _).subset hitem)
    exact (List.mem_filter.mp hadmitted).1
  constructor
  · refine ⟨sorted, hsorted, hunique, ?_⟩
    rw [List.map_map]
    exact List.map_id _
  · have hall : (sorted.map Prod.snd).Nodup :=
      (hsorted.perm.map _).nodup_iff.mpr (nodup_positions_admitted p listings)
    rw [List.map_map]
    exact hall.sublist ((Window.cut_sublist _ _).map _)
  · intro h hh
    obtain ⟨item, hitem, rfl⟩ := List.mem_map.mp hh
    exact List.mem_zipIdx_iff_getElem?.mp (hmem item hitem)
  · intro h hh
    obtain ⟨item, _, rfl⟩ := List.mem_map.mp hh
    exact ships_hit hp item
  · exact counts_of_perm hp hheld hsorted.perm

/-- **What a run of a plan gives.**  Over listings without NaN, a run that succeeds delivers, and a
run fails as it has to.  To skip stages that would change nothing gives the same as to run all three,
the hits and the counters. -/
theorem run_delivers {o : Options} {limits : Limits} (hplan : compile o limits = .ok p)
    (hnumbers : ∀ l ∈ listings, l.HasNoNaN) (hheld : Held listings) :
    (∀ out, p.run listings = .ok out → p.Delivers listings out) ∧
    (∀ e, p.run listings = .error e ↔ p.Fails listings e) ∧
    ∀ skipping, p.runStages skipping listings = p.run listings := by
  have hp := compile_isSound hplan
  refine ⟨?_, fun e => run_eq_error_iff hp, fun skipping => runStages_eq p skipping listings⟩
  intro out hout
  have hevaluates : ∀ l ∈ listings, ∃ verdict, p.filter.evaluate l = .ok verdict := by
    rcases firstFailure_or_all (fun l => p.filter.evaluate l) listings with hall | ⟨e, he⟩
    · exact hall
    · have herror := (run_eq_error_iff hp).mpr (Or.inl he)
      rw [hout] at herror
      cases herror
  rw [run_of_evaluates hp hevaluates] at hout
  cases hrun : p.sort.run Prod.fst (p.admitted listings) with
  | error e =>
      rw [hrun] at hout
      cases hout
  | ok sorted =>
      obtain ⟨hitems, hsorted⟩ :=
        SortOrder.arranged_of_run hp.sortable (hasNoNaN_admitted hnumbers) hrun
      have hlength : sorted.length < UInt64.size := by
        have hmatched := length_admitted_le p listings
        rw [hsorted.perm.length_eq]
        unfold Held at hheld
        omega
      rw [hrun, Except.map, Except.ok.injEq, Window.run_eq_cut p.window hlength] at hout
      rw [← hout]
      exact delivers_of_arranged hp hheld hsorted fun other hother =>
        hsorted.unique hp.sortable hitems hother

/-- Flats with pictures, one without a rent. -/
def offers : List Listing :=
  [{ SortOrder.flat (some ⟨0x407F400000000000⟩) none with
      anhaenge := [Allocation.picture 600, Allocation.picture 600, Allocation.picture 100] },
    { SortOrder.flat none none with anhaenge := [Allocation.picture 100] },
    { SortOrder.flat (some ⟨0x4085E00000000000⟩) none with anhaenge := [Allocation.picture 1000] }]

/-- The first two flats with a rent of 500 or more, the highest rent first, with pictures of a
thousand bytes. -/
def offersQuery : Options :=
  { filter := some "kaltmiete>=500"
    sort := some "kaltmiete:desc"
    paging := some "limit:2,page:0"
    attachments := some "bytes:1000"
    includes := some "attachments" }

/-- The plan of that query. -/
def offersPlan : Plan :=
  { filter := .test ⟨.kaltmiete, .ge, "500", .int 500⟩
    sort := ⟨[⟨.kaltmiete, true⟩]⟩
    window := ⟨some 2, 0⟩
    includes := ⟨false, true⟩
    attachments := some (.budgeted ⟨Budget.ofBytes (some 1000), .all, none⟩) }

/-- The query is made its plan, which delivers the third flat with its picture and behind it the first
one with its first picture: the second is too large by then, and no picture ships behind it. -/
theorem offers_delivered :
    compile offersQuery Limits.standard = .ok offersPlan ∧ (∀ l ∈ offers, l.HasNoNaN) ∧
      Held offers ∧ ∃ out, offersPlan.run offers = .ok out ∧
        (out.hits.map fun h => (h.position, h.attachments)) = [(2, [0]), (0, [0])] ∧
        out.recordsMatched = 2 ∧ offersPlan.Delivers offers out := by
  have hplan : compile offersQuery Limits.standard = .ok offersPlan :=
    Filter.eq_ok_of_toOption (by decide +kernel)
  have hnumbers : ∀ l ∈ offers, l.HasNoNaN := by decide
  have hheld : Held offers := by decide
  have hrun : offersPlan.run offers = .ok
      ⟨[⟨2, offers[2], [0]⟩, ⟨0, offers[0], [0]⟩], 3, 2⟩ :=
    run_of_insertion (compile_isSound hplan) hnumbers (by decide +kernel)
  exact ⟨hplan, hnumbers, hheld, _, hrun, rfl, rfl, (run_delivers hplan hnumbers hheld).1 _ hrun⟩

end Plan

end ListingQuery
