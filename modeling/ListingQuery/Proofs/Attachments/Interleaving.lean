import ListingQuery.Proofs.Attachments.Verdicts

/-!
# Interleaved categories

An allocation that charges looks at nothing but the sizes of the attachments of each category, in the
order in which that category has them.  How the categories are interleaved in the list makes no
difference, and neither do attachments that lie with somebody else, wherever they stand and however
large they are.

Two lists are followed side by side: `Walk.next_congr` is one step, `Walk.run_congr` the walk over a
category, `serveAll_ledger_congr` all categories, and `allocation_depends_on_sizes` the allocations.
-/

namespace ListingQuery.Allocation

/-- The sizes of attachments. -/
def sizes (as : List Attachment) : List UInt64 :=
  as.map (·.sizeBytes)

namespace Walk

/-- A step of a walk looks at the size of the attachment. -/
theorem next_congr (w : Walk) {a b : Attachment} (hsize : a.sizeBytes = b.sizeBytes) :
    w.next a = w.next b := by
  simp only [next, hsize]

/-- Walks over attachments of the same sizes give the same verdicts and end alike. -/
theorem run_congr (w : Walk) {as bs : List Attachment} (hsizes : sizes as = sizes bs) :
    w.verdicts as = w.verdicts bs ∧ w.after as = w.after bs := by
  induction as generalizing w bs with
  | nil =>
      obtain rfl : bs = [] := by simpa [sizes] using hsizes.symm
      exact ⟨rfl, rfl⟩
  | cons a as ih =>
      cases bs with
      | nil => simp [sizes] at hsizes
      | cons b bs =>
          obtain ⟨hsize, hrest⟩ := List.cons.inj hsizes
          obtain ⟨hverdicts, hafter⟩ := ih (w.next b).2 hrest
          rw [verdicts_cons, verdicts_cons, after_cons, after_cons, w.next_congr hsize]
          exact ⟨congrArg _ hverdicts, hafter⟩

end Walk

/-- Tables that charge the same sizes to every category leave the same bytes. -/
theorem serveAll_ledger_congr (budget : Budget) (bytes : Ledger) {rows others : List Row}
    (hsizes : ∀ c, sizes (chargedTo c rows) = sizes (chargedTo c others)) (cs : List Category) :
    (serveAll budget bytes rows cs).2 = (serveAll budget bytes others cs).2 := by
  induction cs generalizing bytes rows others with
  | nil => rfl
  | cons c cs ih =>
      have hafter := ((Walk.start budget c bytes).run_congr (hsizes c)).2
      rw [serveAll_cons, serveAll_cons, serve_walk, serve_walk, hafter]
      apply ih
      intro c'
      rw [chargedTo_congr c' (serve_keys c _ rows), chargedTo_congr c' (serve_keys c _ others)]
      exact hsizes c'

/-- The bytes behind categories depend on the sizes of what is charged. -/
theorem served_ledger_congr (budget : Budget) {attachments others : List Attachment}
    (hsizes : ∀ c, sizes (chargeable c attachments) = sizes (chargeable c others))
    (cs : List Category) :
    (served budget attachments cs).2 = (served budget others cs).2 := by
  apply serveAll_ledger_congr
  intro c
  rw [chargedTo_uncharged, chargedTo_uncharged]
  exact hsizes c

/-- **An allocation depends on the order within each category alone.**  Two lists that charge the same
sizes in the same order to every category can both be allocated; every category gets the same
verdicts, and the bytes that are used and left are the same. -/
theorem allocation_depends_on_sizes {budget : Budget} (hlimited : budget.isLimited = true)
    {attachments others : List Attachment}
    (hsizes : ∀ c, sizes (chargeable c attachments) = sizes (chargeable c others)) :
    ∃ a b, Allocation.of attachments .all budget = .ok a ∧
      Allocation.of others .all budget = .ok b ∧
      (∀ c, a.verdictsIn c attachments = b.verdictsIn c others) ∧
      a.bytesUsed = b.bytesUsed ∧ a.bytesRemaining = b.bytesRemaining := by
  obtain ⟨a, ha⟩ : ∃ a, Allocation.of attachments .all budget = .ok a :=
    exists_of (Or.inr hlimited) attachments
  obtain ⟨b, hb⟩ : ∃ b, Allocation.of others .all budget = .ok b :=
    exists_of (Or.inr hlimited) others
  have hledger := served_ledger_congr budget hsizes
  refine ⟨a, b, ha, hb, ?_, ?_, ?_⟩
  · intro c
    rw [verdictsIn_of ha, verdictsIn_of hb, hledger]
    exact (Walk.run_congr _ (hsizes c)).1
  · rw [(of_all_eq_ok_iff.mp ha).2, (of_all_eq_ok_iff.mp hb).2, hledger]
  · rw [(of_all_eq_ok_iff.mp ha).2, (of_all_eq_ok_iff.mp hb).2, hledger]

/-- Two pictures, then a document. -/
def picturesFirst : List Attachment :=
  [picture 600, picture 500, { picture 400 with group := some .dokumente }]

/-- The same sizes, behind a large document that lies with somebody else. -/
def documentsFirst : List Attachment :=
  [{ picture 5000 with group := some .dokumente, location := .remote },
    { picture 400 with group := some .dokumente, location := .external }, picture 600, picture 500]

/-- In both lists the second picture breaks the byte cap and the document uses it up. -/
theorem pictures_interleaved_alike :
    (Budget.ofBytes (some 1000)).isLimited = true ∧
    (∀ c, sizes (chargeable c picturesFirst) = sizes (chargeable c documentsFirst)) ∧
    ∃ a b, Allocation.of picturesFirst .all (Budget.ofBytes (some 1000)) = .ok a ∧
      Allocation.of documentsFirst .all (Budget.ofBytes (some 1000)) = .ok b ∧
      (∀ c, a.verdictsIn c picturesFirst = b.verdictsIn c documentsFirst) ∧
      b.verdictsIn .picture documentsFirst = [.admitted, .byteCapReached] ∧
      b.bytesUsed = 1000 := by
  have hlimited : (Budget.ofBytes (some 1000)).isLimited = true := rfl
  have hsizes : ∀ c, sizes (chargeable c picturesFirst) = sizes (chargeable c documentsFirst) := by
    intro c
    cases c <;> rfl
  obtain ⟨a, b, ha, hb, hverdicts, hused, _⟩ := allocation_depends_on_sizes hlimited hsizes
  have hfirst : a = ⟨[⟨0, .picture, .admitted⟩, ⟨1, .picture, .byteCapReached⟩,
      ⟨2, .document, .admitted⟩], 1000, some 0⟩ := (Except.ok.inj ha).symm
  refine ⟨hlimited, hsizes, a, b, ha, hb, hverdicts, ?_, ?_⟩
  · rw [← hverdicts, hfirst]
    rfl
  · rw [← hused, hfirst]

end ListingQuery.Allocation
