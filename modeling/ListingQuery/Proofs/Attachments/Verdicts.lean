import ListingQuery.Proofs.Attachments.Shipping

/-!
# The verdicts of a category

The table of an allocation holds the decisions on all attachments.  Serving a category touches none
but its own rows, so that the verdicts of a category are those of its walk, and the walk is known as
soon as two things are: the attachments charged to the category, and the ledger of bytes that the
categories before it leave.

* `verdictsTo_serveAll` is the walk of one category among others;
* `verdictsIn_of` says it of an allocation, and `admittedIn_of` of the attachments that it admits.
-/

namespace ListingQuery

/-- The categories that are served before a category. -/
def Category.before (c : Category) : List Category :=
  Category.all.takeWhile (· != c)

/-- A category divides the others into those before it and those after it. -/
theorem Category.exists_all_eq (c : Category) :
    ∃ after, Category.all = c.before ++ c :: after ∧ c ∉ after ∧
      ∀ earlier ∈ c.before, earlier ∉ c :: after := by
  cases c <;> exact ⟨_, rfl, by decide, by decide⟩

namespace Allocation

/-- The attachments of a list that are charged to a category. -/
def chargeable (c : Category) (attachments : List Attachment) : List Attachment :=
  attachments.filter fun x => x.category == c && !x.isRemote

/-- The verdicts of an allocation on the attachments that are charged to a category. -/
def verdictsIn (a : Allocation) (c : Category) (attachments : List Attachment) : List Verdict :=
  ((attachments.zip a.decisions).filter fun p => p.1.category == c && !p.1.isRemote).map
    (·.2.verdict)

/-- The attachments that are charged to a category and admitted. -/
def admittedIn (a : Allocation) (c : Category) (attachments : List Attachment) :
    List Attachment :=
  (((attachments.zip a.decisions).filter fun p => p.1.category == c && !p.1.isRemote).filter
    (·.2.verdict == .admitted)).map (·.1)

/-! ## The verdicts of a walk -/

namespace Walk

/-- The verdicts of a walk, one for each attachment. -/
def verdicts (w : Walk) : List Attachment → List Verdict
  | [] => []
  | a :: as => (w.next a).1 :: (w.next a).2.verdicts as

@[simp] theorem verdicts_nil (w : Walk) : w.verdicts [] = [] := rfl

@[simp] theorem verdicts_cons (w : Walk) (a : Attachment) (as : List Attachment) :
    w.verdicts (a :: as) = (w.next a).1 :: (w.next a).2.verdicts as := rfl

/-- What a walk admits are the attachments with that verdict. -/
theorem admitted_eq (w : Walk) (as : List Attachment) :
    w.admitted as = ((as.zip (w.verdicts as)).filter (·.2 == .admitted)).map (·.1) := by
  induction as generalizing w with
  | nil => rfl
  | cons a as ih =>
      rw [admitted, verdicts_cons, List.zip_cons_cons, List.filter_cons, ih]
      by_cases hadmitted : (w.next a).1 = .admitted <;> simp [hadmitted]

/-- In a closed category every attachment meets the closed category. -/
theorem verdicts_of_closed {w : Walk} (hclosed : w.closed = true) (as : List Attachment) :
    w.verdicts as = List.replicate as.length .categoryClosed := by
  induction as with
  | nil => rfl
  | cons a as ih =>
      have hnext : w.next a = (.categoryClosed, w) := by simp [next, hclosed]
      rw [verdicts_cons, hnext, ih]
      rfl

end Walk

/-! ## The walk of one category among others -/

/-- The verdicts of a table on the attachments that are charged to a category. -/
def verdictsTo (c : Category) (rows : List Row) : List Verdict :=
  (rows.filter (charges c)).map (·.2.verdict)

/-- A category takes the verdicts of its walk. -/
theorem verdictsTo_serve (c : Category) (w : Walk) (rows : List Row) :
    verdictsTo c (serve c w rows).1 = w.verdicts (chargedTo c rows) := by
  induction rows generalizing w with
  | nil => rfl
  | cons r rows ih =>
      obtain ⟨a, d⟩ := r
      unfold verdictsTo at ih ⊢
      cases hcharges : charges c (a, d) with
      | true =>
          have hkept : charges c (a, { d with verdict := (w.next a).1 }) = true := hcharges
          rw [serve_cons_of_charges hcharges, chargedTo_cons, hcharges,
            List.filter_cons_of_pos hkept, List.map_cons, ih]
          rfl
      | false =>
          rw [serve_cons_of_not_charges hcharges, chargedTo_cons, hcharges,
            List.filter_cons_of_neg (by simp [hcharges]), ih]
          rfl

variable (budget : Budget)

/-- Categories are served one after the other. -/
theorem serveAll_append (bytes : Ledger) (rows : List Row) (before after : List Category) :
    serveAll budget bytes rows (before ++ after) =
      serveAll budget (serveAll budget bytes rows before).2 (serveAll budget bytes rows before).1
        after := by
  induction before generalizing bytes rows with
  | nil => rfl
  | cons c before ih => rw [List.cons_append, serveAll_cons, serveAll_cons, ih]

/-- Among categories that are served one after the other, each takes the verdicts of the walk that
starts from the bytes behind those before it. -/
theorem verdictsTo_serveAll {before after : List Category} {c : Category}
    (hc : c ∉ after) (bytes : Ledger) (rows : List Row) :
    verdictsTo c (serveAll budget bytes rows (before ++ c :: after)).1 =
      (Walk.start budget c (serveAll budget bytes rows before).2).verdicts (chargedTo c rows) := by
  have hkeys := serveAll_keys budget bytes rows before
  rw [serveAll_append, serveAll_cons, verdictsTo, filter_charges_serveAll budget hc]
  exact (verdictsTo_serve c _ _).trans (by rw [chargedTo_congr c hkeys])

/-! ## Allocations -/

/-- The table of decisions and the ledger of bytes behind some categories. -/
def served (attachments : List Attachment) (cs : List Category) : List Row × Ledger :=
  serveAll budget (Ledger.new budget.byteCap) (uncharged attachments) cs

/-- The table has a row for every attachment, in the order of the list. -/
theorem served_keys (attachments : List Attachment) (cs : List Category) :
    (served budget attachments cs).1.map Row.key = (uncharged attachments).map Row.key :=
  serveAll_keys budget _ _ cs

/-- The table holds the attachments in the order of the list. -/
theorem served_attachments (attachments : List Attachment) (cs : List Category) :
    (served budget attachments cs).1.map (·.1) = attachments := by
  have hfirst : ∀ rows : List Row, rows.map (·.1) = (rows.map Row.key).map (·.1) := by
    intro rows
    simp [Row.key]
  rw [hfirst, served_keys, ← hfirst, uncharged, List.map_map]
  exact List.zipIdx_map_fst 0 attachments

variable {budget} {attachments : List Attachment} {a : Allocation}

/-- Without an explicit selection an allocation is what all categories leave. -/
theorem of_all_eq_ok_iff : Allocation.of attachments .all budget = .ok a ↔
    budget.isLimited = true ∧
      a = ⟨(served budget attachments Category.all).1.map (·.2),
        (served budget attachments Category.all).2.used,
        (served budget attachments Category.all).2.remaining⟩ := by
  unfold Allocation.of Budget.validate
  cases budget.isLimited <;> simp [Selection.isExplicit, Except.map, served, eq_comm]

/-- The attachments with the decisions on them are the table. -/
theorem zip_decisions (ha : Allocation.of attachments .all budget = .ok a) :
    attachments.zip a.decisions = (served budget attachments Category.all).1 := by
  obtain ⟨_, rfl⟩ := of_all_eq_ok_iff.mp ha
  have hfirst := served_attachments budget attachments Category.all
  calc attachments.zip ((served budget attachments Category.all).1.map (·.2))
      = ((served budget attachments Category.all).1.map (·.1)).zip
          ((served budget attachments Category.all).1.map (·.2)) := by rw [hfirst]
    _ = (served budget attachments Category.all).1 := (List.zip_of_prod rfl rfl).symm

/-- There is one decision for each attachment, with its place in the list and its category. -/
theorem places_decisions (ha : Allocation.of attachments .all budget = .ok a) :
    (a.decisions.map fun d => (d.index, d.category)) =
      attachments.zipIdx.map fun p => (p.2, p.1.category) := by
  obtain ⟨_, rfl⟩ := of_all_eq_ok_iff.mp ha
  have hplaces := congrArg (List.map Prod.snd) (served_keys budget attachments Category.all)
  simpa [Row.key, uncharged, Function.comp_def] using hplaces

/-- Attachments that lie with somebody else ship uncharged. -/
theorem verdict_of_isRemote (ha : Allocation.of attachments .all budget = .ok a) :
    ∀ p ∈ attachments.zip a.decisions, p.1.isRemote = true → p.2.verdict = .whitelisted := by
  rw [zip_decisions ha]
  intro r hr hremote
  have hkept : (served budget attachments Category.all).1.filter (·.1.isRemote) =
      (uncharged attachments).filter (·.1.isRemote) := by
    refine filter_serveAll budget (fun k => k.1.isRemote) ?_ _ _
    intro c _ r hr
    have hremote : r.1.isRemote = true := hr
    simp [charges, hremote]
  have hmem : r ∈ (uncharged attachments).filter (·.1.isRemote) := by
    rw [← hkept]
    exact List.mem_filter.mpr ⟨hr, hremote⟩
  obtain ⟨p, _, rfl⟩ := List.mem_map.mp (List.mem_filter.mp hmem).1
  rfl

/-- The attachments charged to a category, each with the decision on it, are its rows. -/
theorem filter_zip_decisions (ha : Allocation.of attachments .all budget = .ok a) (c : Category) :
    ((attachments.zip a.decisions).filter fun p => p.1.category == c && !p.1.isRemote) =
      (served budget attachments Category.all).1.filter (charges c) := by
  rw [zip_decisions ha]
  apply List.filter_congr
  intro r hr
  rw [charges, (row_of_keys (served_keys budget attachments Category.all) hr).2]

/-- **The verdicts of a category** are those of its walk, which starts from the bytes behind the
categories before it. -/
theorem verdictsIn_of (ha : Allocation.of attachments .all budget = .ok a) (c : Category) :
    a.verdictsIn c attachments =
      (Walk.start budget c (served budget attachments c.before).2).verdicts
        (chargeable c attachments) := by
  obtain ⟨after, hall, hc, _⟩ := c.exists_all_eq
  rw [verdictsIn, filter_zip_decisions ha, hall]
  exact (verdictsTo_serveAll budget hc _ _).trans (by rw [chargedTo_uncharged]; rfl)

/-- What is admitted of a category is what its walk admits. -/
theorem admittedIn_of (ha : Allocation.of attachments .all budget = .ok a) (c : Category) :
    a.admittedIn c attachments =
      (Walk.start budget c (served budget attachments c.before).2).admitted
        (chargeable c attachments) := by
  have hcharged : chargeable c attachments =
      ((served budget attachments Category.all).1.filter (charges c)).map (·.1) := by
    have hkeys := chargedTo_congr c (served_keys budget attachments Category.all)
    exact (chargedTo_uncharged c attachments).symm.trans hkeys.symm
  rw [Walk.admitted_eq, ← verdictsIn_of ha, verdictsIn, admittedIn, filter_zip_decisions ha,
    hcharged, List.zip_map', List.filter_map, List.map_map]
  rfl

/-- The attachments of a category that ship are those that are admitted. -/
theorem shippedTo_served (ha : Allocation.of attachments .all budget = .ok a) (c : Category) :
    shippedTo c (served budget attachments Category.all).1 = a.admittedIn c attachments := by
  obtain ⟨after, hall, hc, _⟩ := c.exists_all_eq
  have hkeys := serveAll_keys budget (Ledger.new budget.byteCap) (uncharged attachments) c.before
  rw [admittedIn_of ha, served, hall, serveAll_append, serveAll_cons,
    shippedTo_serveAll_of_not_mem budget hc, shippedTo_serve, chargedTo_congr c hkeys,
    chargedTo_uncharged]
  rfl

/-- **The bytes a category starts from** are those of what is admitted of the categories before it,
cut at the largest word. -/
theorem used_before (ha : Allocation.of attachments .all budget = .ok a) (c : Category) :
    (served budget attachments c.before).2.used.toNat =
      min Ledger.largest
        (totalBytes (c.before.flatMap fun earlier => a.admittedIn earlier attachments)) := by
  obtain ⟨after, hall, _, hearlier⟩ := c.exists_all_eq
  have hdistinct : c.before.Nodup := by
    have hnodup : (c.before ++ c :: after).Nodup := hall ▸ (by decide)
    exact (List.nodup_append.mp hnodup).1
  have hshipped : ∀ earlier ∈ c.before,
      shippedTo earlier (served budget attachments c.before).1 =
        a.admittedIn earlier attachments := by
    intro earlier hmem
    rw [← shippedTo_served ha, served, served, hall, serveAll_append,
      shippedTo_serveAll_of_not_mem budget (hearlier earlier hmem)]
  have hused := serveAll_used budget (Ledger.new budget.byteCap) (uncharged attachments) hdistinct
  have hzero : (Ledger.new budget.byteCap).used.toNat = 0 := rfl
  rw [hzero, Nat.zero_add] at hused
  rw [served, hused, List.flatMap_def, List.flatMap_def]
  exact congrArg (fun parts => min Ledger.largest (totalBytes parts.flatten))
    (List.map_congr_left hshipped)

end Allocation

end ListingQuery
