import Mathlib.Data.List.Forall2
import ListingQuery.Proofs.Filter.Evaluation
import ListingQuery.Proofs.Running.Delivery

/-!
# What a run does not see

The free texts and the attachments of listings are shown, but they have no part in which listings are
shown: no field has its value in them, and under the plan of a query the attachments of no listing
end a run.

* `Listing.SameFacts` are two listings that differ at most in these parts;
* `Listing.facts` cuts the parts off, which neither the filter nor the keys nor the window see
  (`run_map` of each), so that two runs over such listings go in lockstep;
* `Plan.Alike` is what the two outcomes have in common, and `run_ignores_texts` the result.
-/

namespace ListingQuery

/-! ## The facts of a listing -/

namespace Listing

/-- The listings differ in nothing but their free texts and their attachments. -/
def SameFacts (l m : Listing) : Prop :=
  m = { l with freitexte := m.freitexte, anhaenge := m.anhaenge }

/-- A listing without its free texts and its attachments. -/
def facts (l : Listing) : Listing :=
  { l with freitexte := none, anhaenge := [] }

/-- Listings with the same facts are one listing without free texts and attachments. -/
theorem SameFacts.facts_eq {l m : Listing} (h : l.SameFacts m) : l.facts = m.facts := by
  rw [h]
  rfl

end Listing

/-- **No field has its value in the free texts or the attachments.** -/
theorem Field.valueIn_facts (f : Field) (l : Listing) : f.valueIn l.facts = f.valueIn l := by
  cases f <;> rfl

/-- A filter sees the facts of a listing and nothing else. -/
theorem Filter.evaluate_facts (f : Filter) (l : Listing) : f.evaluate l.facts = f.evaluate l :=
  evaluate_congr fun c _ => c.field.valueIn_facts l

/-- The keys see the facts of a listing and nothing else. -/
theorem SortOrder.rowOf_facts (s : SortOrder) (l : Listing) : s.rowOf l.facts = s.rowOf l := by
  simp only [rowOf, SortKey.valueIn, Field.valueIn_facts]

/-- A listing at a position, with its facts only. -/
def factsAt (item : Listing × Nat) : Listing × Nat :=
  (item.1.facts, item.2)

/-- To take the facts of listings keeps their positions. -/
theorem zipIdx_map_factsAt (listings : List Listing) :
    listings.zipIdx.map factsAt = (listings.map Listing.facts).zipIdx := by
  rw [List.zipIdx_map]
  rfl

/-- Listings with the same facts, one by one, have the same lists of facts. -/
theorem map_facts_eq {listings others : List Listing}
    (h : List.Forall₂ Listing.SameFacts listings others) :
    listings.map Listing.facts = others.map Listing.facts := by
  induction h with
  | nil => rfl
  | cons hfirst _ ih => rw [List.map_cons, List.map_cons, hfirst.facts_eq, ih]

/-- Two computations of which the same is made: both fail alike, or the same is made of what they
give. -/
theorem cases_of_map_eq {α β : Type} {x y : Except QueryError α} {g : α → β}
    (h : x.map g = y.map g) :
    (∃ e, x = .error e ∧ y = .error e) ∨ ∃ a b, x = .ok a ∧ y = .ok b ∧ g a = g b := by
  cases x with
  | error e =>
      cases y with
      | error d =>
          cases h
          exact Or.inl ⟨e, rfl, rfl⟩
      | ok b => cases h
  | ok a =>
      cases y with
      | error d => cases h
      | ok b => exact Or.inr ⟨a, b, rfl, rfl, Except.ok.inj h⟩

/-! ## Two runs in lockstep -/

namespace Plan

variable {o : Options} {limits : Limits} {p : Plan} {listings others : List Listing}

/-- Two outcomes of a plan have in common which listings were returned: the positions of the hits in
their order and the counters, and what is shown where neither free texts nor attachments are. -/
structure Alike (p : Plan) (out other : Outcome) : Prop where
  positions : out.hits.map Hit.position = other.hits.map Hit.position
  recordsMatched : out.recordsMatched = other.recordsMatched
  recordsOut : out.recordsOut = other.recordsOut
  rendered : p.includes.freeTexts = false → p.includes.attachments = false →
    out.hits.map (fun h => h.render p.includes) = other.hits.map (fun h => h.render p.includes)

/-- Where neither free texts nor attachments are included, the facts are shown. -/
theorem render_hit (hfreeTexts : p.includes.freeTexts = false)
    (hattachments : p.includes.attachments = false) (item : Listing × Nat) :
    (p.hit item).render p.includes = item.1.facts := by
  simp [Hit.render, hfreeTexts, hattachments, Listing.projected, Listing.facts, hit]

/-- Pages with the same facts at the same positions are returned alike. -/
theorem alike_of_page {page page' : List (Listing × Nat)}
    (hpage : page.map factsAt = page'.map factsAt) (n n' : Nat) {matched matched' : Nat}
    (hmatched : matched = matched') :
    p.Alike ⟨page.map p.hit, n, matched⟩ ⟨page'.map p.hit, n', matched'⟩ := by
  constructor
  · have hpositions := congrArg (List.map Prod.snd) hpage
    rw [List.map_map, List.map_map] at hpositions ⊢
    exact hpositions
  · exact hmatched
  · have hlength := congrArg List.length hpage
    simpa [Outcome.recordsOut] using hlength
  · intro hfreeTexts hattachments
    have hfacts := congrArg (List.map Prod.fst) hpage
    have hrender : (fun h => h.render p.includes) ∘ p.hit = Prod.fst ∘ factsAt :=
      funext (render_hit hfreeTexts hattachments)
    rw [List.map_map, List.map_map, hrender]
    rwa [List.map_map, List.map_map] at hfacts

/-- **Free texts and attachments have no part in which listings are returned.**  Over listings that
differ in nothing else, position by position, the plan of a query fails with the same error, or it
returns hits at the same positions in the same order, with the same counters. -/
theorem run_ignores_texts (hplan : compile o limits = .ok p)
    (hsame : List.Forall₂ Listing.SameFacts listings others) :
    (∃ e, p.run listings = .error e ∧ p.run others = .error e) ∨
      ∃ out other, p.run listings = .ok out ∧ p.run others = .ok other ∧ p.Alike out other := by
  have hp := compile_isSound hplan
  have hinput : listings.zipIdx.map factsAt = others.zipIdx.map factsAt := by
    rw [zipIdx_map_factsAt, zipIdx_map_factsAt, map_facts_eq hsame]
  have hfilter : ∀ items, p.filter.run Prod.fst (items.map factsAt) =
      (p.filter.run Prod.fst items).map (List.map factsAt) :=
    Filter.run_map fun item => p.filter.evaluate_facts item.1
  have hsort : ∀ items, p.sort.run Prod.fst (items.map factsAt) =
      (p.sort.run Prod.fst items).map (List.map factsAt) :=
    SortOrder.run_map fun item => p.sort.rowOf_facts item.1
  rw [run_eq hp, run_eq hp]
  -- each stage is taken by both runs, and what they hold has the same facts
  have hmatched := congrArg (p.filter.run Prod.fst) hinput
  rw [hfilter, hfilter] at hmatched
  obtain ⟨e, he, he'⟩ | ⟨matched, matched', hok, hok', hmatched⟩ := cases_of_map_eq hmatched
  · exact Or.inl ⟨e, by rw [he]; rfl, by rw [he']; rfl⟩
  have hsorted := congrArg (p.sort.run Prod.fst) hmatched
  rw [hsort, hsort] at hsorted
  obtain ⟨e, he, he'⟩ | ⟨sorted, sorted', hsok, hsok', hsorted⟩ := cases_of_map_eq hsorted
  · exact Or.inl ⟨e, by rw [hok, Except.bind, he]; rfl, by rw [hok', Except.bind, he']; rfl⟩
  have hpage := congrArg p.window.run hsorted
  rw [Window.run_map, Window.run_map] at hpage
  have hcount : matched.length = matched'.length := by
    simpa using congrArg List.length hmatched
  exact Or.inr ⟨_, _, by rw [hok, Except.bind, hsok]; rfl, by rw [hok', Except.bind, hsok']; rfl,
    alike_of_page hpage _ _ hcount⟩

/-- A listing with a title and without pictures. -/
def retold (l : Listing) : Listing :=
  { l with freitexte := some ⟨some "Altbau", none, none, none, none⟩, anhaenge := [] }

/-- The first two flats with a rent of 500 or more, the highest rent first, without pictures. -/
def plainQuery : Options := { offersQuery with includes := none }

/-- The plan of that query. -/
def plainPlan : Plan := { offersPlan with includes := .nothing, attachments := none }

/-- The same flats are returned and shown if they change their titles and lose their pictures. -/
theorem offers_retold :
    compile plainQuery Limits.standard = .ok plainPlan ∧
      List.Forall₂ Listing.SameFacts offers (offers.map retold) ∧
      ∃ out other, plainPlan.run offers = .ok out ∧ plainPlan.run (offers.map retold) = .ok other ∧
        plainPlan.Alike out other ∧
        out.hits.map (fun h => h.render plainPlan.includes) =
          other.hits.map (fun h => h.render plainPlan.includes) := by
  have hplan : compile plainQuery Limits.standard = .ok plainPlan :=
    Filter.eq_ok_of_toOption (by decide +kernel)
  have hsame : List.Forall₂ Listing.SameFacts offers (offers.map retold) := by
    simp [offers, Listing.SameFacts, retold]
  have hrun : ∃ out, plainPlan.run offers = .ok out :=
    exists_run (compile_isSound hplan) (by decide +kernel) (by decide +kernel)
  refine ⟨hplan, hsame, ?_⟩
  obtain ⟨e, he, _⟩ | ⟨out, other, hout, hother, halike⟩ := run_ignores_texts hplan hsame
  · obtain ⟨out, hout⟩ := hrun
    rw [he] at hout
    cases hout
  · exact ⟨out, other, hout, hother, halike, halike.rendered rfl rfl⟩

end Plan

end ListingQuery
