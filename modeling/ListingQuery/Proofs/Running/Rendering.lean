import ListingQuery.Proofs.Listing.RoundTrip
import ListingQuery.Proofs.Running.Stages
import ListingQuery.Proofs.Window

/-!
# Rendered hits read back

What is shown of a hit is a listing again: the one that was found, less the free texts and the
attachments that were not asked for.  It has the numbers of the listing that was found, and so its text
is read as what was shown whenever the texts of these numbers are.

* `Plan.listing_mem_of_run` says that hits are listings of the input;
* `Hit.rereads_render` passes from the listing to what is shown of it;
* `Listing.written_reads_back` is the result.
-/

namespace ListingQuery

/-- All floating point numbers of the listing are finite. -/
def Listing.IsFinite (l : Listing) : Prop :=
  ∀ o ∈ l.numbers, ∀ x ∈ o, x.isFinite = true

instance (l : Listing) : Decidable l.IsFinite :=
  inferInstanceAs (Decidable (∀ o ∈ l.numbers, ∀ x ∈ o, x.isFinite = true))

/-- A hit shows the numbers of its listing. -/
theorem Hit.numbers_render (h : Hit) (includes : Includes) :
    (h.render includes).numbers = h.listing.numbers := by
  unfold render
  split <;> rfl

/-- What is shown of a listing that rereads rereads. -/
theorem Hit.rereads_render {h : Hit} (hlisting : h.listing.Rereads) (includes : Includes) :
    (h.render includes).Rereads := by
  rw [Listing.Rereads, numbers_render]
  exact hlisting

/-- Every hit is a listing of the input. -/
theorem Plan.listing_mem_of_run {p : Plan} {listings : List Listing} {o : Outcome}
    (hrun : p.run listings = .ok o) : ∀ h ∈ o.hits, h.listing ∈ listings := by
  have hhits := hits_eq_bind p listings
  rw [hrun] at hhits
  intro h hh
  cases hlineup : p.lineup listings with
  | error e =>
      rw [hlineup] at hhits
      cases hhits
  | ok sorted =>
      rw [hlineup] at hhits
      obtain ⟨item, hitem, hhit⟩ := exists_of_mem_traverse hhits.symm hh
      have hinput := (subperm_lineup hlineup).subset ((p.window.sublist_run sorted).subset hitem)
      have hlisting : h.listing = item.1 := by
        unfold hitOf at hhit
        cases hattachments : p.attachmentsOf item.1 with
        | error e =>
            rw [hattachments] at hhit
            cases hhit
        | ok positions =>
            rw [hattachments] at hhit
            rw [← Except.ok.inj hhit]
      rw [hlisting]
      exact List.fst_mem_of_mem_zipIdx hinput

/-- **What is written is read back.**  Let the numbers of the listings be finite, and the text of a
finite number of theirs be read as that number.  Then each of the listings is read from its text as it
is, they are all read from the text of their list, and whatever a run finds among them is read from the
text of the rendered hits as it was rendered. -/
theorem Listing.written_reads_back {listings : List Listing}
    (hfinite : ∀ l ∈ listings, l.IsFinite)
    (hnumbers : ∀ l ∈ listings, ∀ o ∈ l.numbers, ∀ x ∈ o, x.isFinite = true → x.Rereads) :
    ∀ write ∈ Json.layouts,
      (∀ l ∈ listings, read? (write l.toJson) = some l) ∧
      readAll? (write (.array (listings.map toJson))) = some listings ∧
      ∀ (p : Plan) (o : Outcome), p.run listings = .ok o →
        (∀ h ∈ o.hits, read? (write (h.render p.includes).toJson) = some (h.render p.includes)) ∧
        readAll? (write (.array (o.hits.map fun h => (h.render p.includes).toJson))) =
          some (o.hits.map fun h => h.render p.includes) := by
  have hrereads : ∀ l ∈ listings, l.Rereads := fun l hl o ho x hx =>
    hnumbers l hl o ho x hx (hfinite l hl o ho x hx)
  intro write hwrite
  refine ⟨fun l hl => read?_layout hwrite (hrereads l hl), readAll?_layout hwrite hrereads, ?_⟩
  intro p o hrun
  have hrendered : ∀ h ∈ o.hits, (h.render p.includes).Rereads := fun h hh =>
    h.rereads_render (hrereads h.listing (p.listing_mem_of_run hrun h hh)) p.includes
  refine ⟨fun h hh => read?_layout hwrite (hrendered h hh), ?_⟩
  have hall := readAll?_layout hwrite (List.forall_mem_map.mpr hrendered)
  rwa [List.map_map] at hall

/-! ### An attic to let -/

/-- An attic with letters, control characters and numbers at the ends of their ranges. -/
def attic : Listing :=
  { Listing.empty with
    geo := some ⟨some "04229", some "Köln\t\"Süd\"", none, some "", some "7\u0001\u001f", none,
      some Int64.minValue, some Int64.maxValue⟩
    preise := some ⟨some ⟨0x407F400000000000⟩, none, none, some ⟨0x4051100000000000⟩, none, none,
      none, none, some "1 \\ 2"⟩
    flaechen := some ⟨some ⟨0x4004000000000000⟩, none, none, none, none⟩
    ausstattung := some ⟨some false, none, some ⟨none⟩⟩
    verwaltungObjekt := some ⟨none, some true, none, some ⟨-44, 3, 15, by decide⟩,
      some ⟨some "6", some "MONAT"⟩, none, none, some 2⟩
    verwaltungTechn := some ⟨"", none, "\n🏠"⟩
    freitexte := some ⟨some "Dach", none, none, none, none⟩
    anhaenge := [⟨some "Plan\r", some .grundriss, .intern, none, some "/plan", 0xFFFFFFFFFFFFFFFF⟩,
      ⟨none, none, .remote, some "image/png", none, 0⟩] }

/-- All listings with their attachments and without free texts. -/
def everythingAttached : Plan :=
  ⟨.always, .unsorted, .everything, ⟨false, true⟩, some .unbudgeted⟩

/-- The attic is read back, and so is what is shown of it. -/
theorem attic_reads_back :
    attic.IsFinite ∧ attic.Rereads ∧
      Listing.read? attic.toJson.pretty = some attic ∧
      Listing.readAll? (Json.array [attic.toJson]).compact = some [attic] ∧
      ∃ o, everythingAttached.run [attic] = .ok o ∧
        o.hits.map (fun h => h.render everythingAttached.includes) =
          [attic.projected false true] ∧
        Listing.readAll?
            (Json.array (o.hits.map fun h => (h.render everythingAttached.includes).toJson)).pretty =
          some [attic.projected false true] := by
  have hfinite : attic.IsFinite := by decide
  have hrereads : attic.Rereads := by
    unfold Listing.Rereads
    decide +kernel
  have hfinites : ∀ l ∈ [attic], l.IsFinite := by
    simpa using hfinite
  have hnumbers : ∀ l ∈ [attic], ∀ o ∈ l.numbers, ∀ x ∈ o, x.isFinite = true → x.Rereads := by
    intro l hl o ho x hx _
    obtain rfl := List.mem_singleton.mp hl
    exact hrereads o ho x hx
  have hback := Listing.written_reads_back hfinites hnumbers
  obtain ⟨-, hcompact, -⟩ := hback Json.compact (by simp [Json.layouts])
  obtain ⟨hpretty, -, hhits⟩ := hback Json.pretty (by simp [Json.layouts])
  have hrun : everythingAttached.run [attic] = .ok ⟨[⟨0, attic, [0, 1]⟩], 1, 1⟩ := rfl
  exact ⟨hfinite, hrereads, hpretty attic (by simp), hcompact, _, hrun, rfl,
    (hhits everythingAttached _ hrun).2⟩

end ListingQuery
