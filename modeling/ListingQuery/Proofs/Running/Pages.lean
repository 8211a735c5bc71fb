import ListingQuery.Proofs.Filter.Reader
import ListingQuery.Proofs.Paging
import ListingQuery.Proofs.Running.Delivery
import ListingQuery.Proofs.Window

/-!
# Walking the pages

A query is asked once without paging and once for every page.  All these runs sieve and sort alike and
choose the attachments of a listing alike, so that the pages are pieces of one list: none of its hits
is lost, and none is repeated.

* `hits_of_window` is the query with some paging, by way of the query without;
* `pages_cover` is the result.
-/

namespace ListingQuery.Options

/-- The hits of a query. -/
def hits (o : Options) (limits : Limits) (listings : List Listing) : Except QueryError (List Hit) :=
  (Plan.compile o limits).bind fun p => (p.run listings).map Outcome.hits

/-- The query without paging. -/
def unpaged (o : Options) : Options :=
  { o with paging := none }

/-- The query for one page. -/
def paged (o : Options) (limit page : Nat) : Options :=
  { o with paging := some (Window.pagingText limit page) }

variable {o : Options} {limits : Limits} {listings : List Listing}

/-- No more listings are lined up than there are. -/
theorem length_lineup {p : Plan} {sorted : List (Listing × Nat)}
    (h : p.lineup listings = .ok sorted) : sorted.length ≤ listings.length := by
  simpa using (Plan.subperm_lineup h).length_le

/-- **Paging decides on the window and on nothing else.** -/
theorem hits_of_window {w : Window}
    (hw : Plan.readOr .everything (Window.read · limits.pageSize) o.paging = .ok w) :
    o.hits limits listings = (Plan.compile o.unpaged limits).bind fun p =>
      (p.lineup listings).map fun sorted => (w.run sorted).map p.hit := by
  have hcompile := Plan.compile_of_window hw
  unfold hits unpaged
  cases hplan : Plan.compile { o with paging := none } limits with
  | error e =>
      rw [hplan] at hcompile
      rw [hcompile]
      rfl
  | ok p =>
      rw [hplan] at hcompile
      have hsound := Plan.compile_isSound hcompile
      rw [hcompile]
      exact Plan.hits_eq hsound listings

/-- Without paging the hits are the whole lineup. -/
theorem unpaged_hits (o : Options) (limits : Limits) (listings : List Listing) :
    o.unpaged.hits limits listings = (Plan.compile o.unpaged limits).bind fun p =>
      (p.lineup listings).map fun sorted => sorted.map p.hit :=
  hits_of_window (o := o.unpaged) rfl

/-- A page holds the items at its positions. -/
theorem paged_hits {limit page : Nat} (hlength : listings.length < UInt64.size)
    (hlimit : limit < 2 ^ 63) (hpage : page < 2 ^ 63)
    (hallowed : ∀ most, limits.pageSize = some most → limit ≤ most.toNat) :
    (o.paged limit page).hits limits listings = (Plan.compile o.unpaged limits).bind fun p =>
      (p.lineup listings).map fun sorted => (Window.piece limit page sorted).map p.hit := by
  have hsize : 2 ^ 63 < UInt64.size := by decide
  have hlimitWord : (UInt64.ofNat limit).toNat = limit :=
    UInt64.toNat_ofNat_of_lt' (Nat.lt_trans hlimit hsize)
  have hpageWord : (UInt64.ofNat page).toNat = page :=
    UInt64.toNat_ofNat_of_lt' (Nat.lt_trans hpage hsize)
  have hread : Plan.readOr .everything (Window.read · limits.pageSize)
      (o.paged limit page).paging = .ok ⟨some (UInt64.ofNat limit), UInt64.ofNat page⟩ :=
    Window.read_pagingText hlimit hpage hallowed
  rw [hits_of_window hread]
  change (Plan.compile o.unpaged limits).bind _ = _
  cases Plan.compile o.unpaged limits with
  | error e => rfl
  | ok p =>
      simp only [Except.bind]
      cases hlineup : p.lineup listings with
      | error e => rfl
      | ok sorted =>
          have hsorted := length_lineup hlineup
          simp only [Except.map]
          rw [Window.run_eq_cut _ (by omega), Window.cut_of_limit rfl, hlimitWord, hpageWord]

/-- **The pages of a query are its hits.**  Either the query without paging and every page fail with
one error, or they all succeed; then as many pages as the hits need, one after the other, are the hits
of the query without paging, and the pages behind them are empty. -/
theorem pages_cover (o : Options) (limits : Limits) {listings : List Listing}
    (hlength : listings.length < UInt64.size) {limit : Nat} (hlimit : limit < 2 ^ 63)
    (hallowed : ∀ most, limits.pageSize = some most → limit ≤ most.toNat) :
    (∃ e, o.unpaged.hits limits listings = .error e ∧
      ∀ page < 2 ^ 63, (o.paged limit page).hits limits listings = .error e) ∨
    ∃ (whole : List Hit) (pages : Nat → List Hit), o.unpaged.hits limits listings = .ok whole ∧
      (∀ page < 2 ^ 63, (o.paged limit page).hits limits listings = .ok (pages page)) ∧
      ∀ count ≤ 2 ^ 63, whole.length ≤ count * limit →
        (List.range count).flatMap pages = whole ∧
        ∀ page, count ≤ page → page < 2 ^ 63 → pages page = [] := by
  have hwhole := unpaged_hits o limits listings
  have hpages := fun page (hpage : page < 2 ^ 63) =>
    paged_hits (o := o) hlength hlimit hpage hallowed
  cases hplan : Plan.compile o.unpaged limits with
  | error e =>
      rw [hplan] at hwhole
      refine Or.inl ⟨e, hwhole, fun page hpage => ?_⟩
      rw [hpages page hpage, hplan]
      rfl
  | ok p =>
  cases hlineup : p.lineup listings with
  | error e =>
      rw [hplan, Except.bind, hlineup] at hwhole
      refine Or.inl ⟨e, hwhole, fun page hpage => ?_⟩
      rw [hpages page hpage, hplan, Except.bind, hlineup]
      rfl
  | ok sorted =>
      rw [hplan, Except.bind, hlineup] at hwhole
      refine Or.inr ⟨sorted.map p.hit,
        fun page => (Window.piece limit page sorted).map p.hit, hwhole, ?_, ?_⟩
      · intro page hpage
        rw [hpages page hpage, hplan, Except.bind, hlineup]
        rfl
      · intro count _ hcount
        rw [List.length_map] at hcount
        obtain ⟨hcover, hbehind⟩ := Window.pieces_cover hcount
        constructor
        · rw [← List.map_flatMap, hcover]
        · intro page hpage _
          simp only [hbehind page hpage, List.map_nil]

/-- Where the hits of a query stand in the input can be computed by insertion sort. -/
theorem positions_of_insertion {p : Plan} (hplan : Plan.compile o limits = .ok p)
    (hnumbers : ∀ l ∈ listings, l.HasNoNaN) {found : List Hit}
    (hfound : o.hits limits listings = .ok found) {positions : List Nat}
    (h : (p.runBy .insertion listings).map (Except.map fun out => out.hits.map Hit.position) =
      some (.ok positions)) : found.map Hit.position = positions := by
  rw [hits, hplan, Except.bind] at hfound
  have hp := Plan.compile_isSound hplan
  rw [Plan.runBy_eq_run Sorter.isStable_insertion hp (Plan.not_meetsNaN hp hnumbers)] at h
  cases hrun : p.run listings with
  | error e =>
      rw [hrun] at hfound
      cases hfound
  | ok out =>
      rw [hrun] at hfound h
      rw [← Except.ok.inj hfound]
      exact Except.ok.inj (Option.some.inj h)

/-- Flats, the highest rents first. -/
def byRent : Options :=
  { unset with sort := some "kaltmiete:desc" }

/-- The plan of that query, for a page. -/
def rentPlan (w : Window) : Plan :=
  ⟨.always, ⟨[⟨.kaltmiete, true⟩]⟩, w, .nothing, none⟩

/-- Limits under which a page has two listings at most. -/
def twoByTwo : Limits :=
  { Limits.standard with pageSize := some 2 }

/-- Six flats on three pages of two each: together they are all the flats, the highest rents first,
and the pages behind them are empty. -/
theorem flats_on_pages :
    SortOrder.flats.length < UInt64.size ∧ 2 < 2 ^ 63 ∧
      (∀ most, twoByTwo.pageSize = some most → 2 ≤ most.toNat) ∧
      ∃ (whole : List Hit) (pages : Nat → List Hit),
        byRent.unpaged.hits twoByTwo SortOrder.flats = .ok whole ∧
        whole.map Hit.position = [3, 0, 2, 5, 1, 4] ∧
        (∀ page < 2 ^ 63, (byRent.paged 2 page).hits twoByTwo SortOrder.flats = .ok (pages page)) ∧
        [0, 1, 2].map (fun page => (pages page).map Hit.position) = [[3, 0], [2, 5], [1, 4]] ∧
        (List.range 3).flatMap pages = whole ∧
        ∀ page, 3 ≤ page → page < 2 ^ 63 → pages page = [] := by
  have hlength : SortOrder.flats.length < UInt64.size := by decide
  have hallowed : ∀ most, twoByTwo.pageSize = some most → 2 ≤ most.toNat := by
    intro most hmost
    rw [← Option.some.inj hmost]
    decide
  have hnumbers : ∀ l ∈ SortOrder.flats, l.HasNoNaN := by decide
  have hplan : Plan.compile byRent.unpaged twoByTwo = .ok (rentPlan .everything) :=
    Filter.eq_ok_of_toOption (by decide +kernel)
  refine ⟨hlength, by decide, hallowed, ?_⟩
  rcases pages_cover byRent twoByTwo hlength (by decide) hallowed with
    ⟨e, herror, _⟩ | ⟨whole, pages, hwhole, hpages, hcover⟩
  · obtain ⟨out, hout⟩ : ∃ out, (rentPlan .everything).run SortOrder.flats = .ok out :=
      Plan.exists_run (Plan.compile_isSound hplan) (by decide +kernel) (by decide +kernel)
    rw [hits, hplan, Except.bind, hout] at herror
    cases herror
  · have hpositions : whole.map Hit.position = [3, 0, 2, 5, 1, 4] :=
      positions_of_insertion hplan hnumbers hwhole (by decide +kernel)
    have hsize : whole.length ≤ 3 * 2 := by
      have hsame := congrArg List.length hpositions
      rw [List.length_map] at hsame
      exact hsame.le
    have hpage : ∀ page ∈ [0, 1, 2],
        Plan.compile (byRent.paged 2 page) twoByTwo =
          .ok (rentPlan ⟨some 2, UInt64.ofNat page⟩) := by
      intro page hpage
      exact Filter.eq_ok_of_toOption (by revert page; decide +kernel)
    have hfirst : (pages 0).map Hit.position = [3, 0] :=
      positions_of_insertion (hpage 0 (by decide)) hnumbers (hpages 0 (by decide))
        (by decide +kernel)
    have hsecond : (pages 1).map Hit.position = [2, 5] :=
      positions_of_insertion (hpage 1 (by decide)) hnumbers (hpages 1 (by decide))
        (by decide +kernel)
    have hthird : (pages 2).map Hit.position = [1, 4] :=
      positions_of_insertion (hpage 2 (by decide)) hnumbers (hpages 2 (by decide))
        (by decide +kernel)
    obtain ⟨hflat, hbehind⟩ := hcover 3 (by decide) hsize
    refine ⟨whole, pages, hwhole, hpositions, hpages, ?_, hflat, hbehind⟩
    simp only [List.map_cons, List.map_nil, hfirst, hsecond, hthird]

end ListingQuery.Options
