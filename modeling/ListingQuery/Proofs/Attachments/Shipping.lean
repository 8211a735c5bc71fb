import ListingQuery.Proofs.Attachments.ByteCap

/-!
# What an allocation ships

An allocation decides on every attachment once and in the order of the list, so that what ships are
the attachments with a decision to ship, in the order of the list.  It fails only if nothing is
selected explicitly and no cap is set.

* `exists_of` says when there is an allocation;
* `index_decisions` is the order of the decisions;
* `pick_eq`, `map_some_pick` and `shipped_ascends` say what ships, and in which order.
-/

namespace ListingQuery

/-- The items at all positions of a list are the list. -/
theorem filterMap_getElem?_range {α : Type} (items : List α) :
    ((List.range items.length).filterMap fun i => items[i]?) = items := by
  induction items with
  | nil => rfl
  | cons a items ih =>
      rw [List.length_cons, List.range_succ_eq_map, List.filterMap_cons, List.filterMap_map]
      simpa [Function.comp_def] using ih

/-- At positions within a list there are as many items as positions. -/
theorem length_filterMap_getElem? {α : Type} {items : List α} {positions : List Nat}
    (h : ∀ i ∈ positions, i < items.length) :
    (positions.filterMap fun i => items[i]?).length = positions.length := by
  induction positions with
  | nil => rfl
  | cons i positions ih =>
      have hi := h i List.mem_cons_self
      have hrest := ih fun j hj => h j (List.mem_cons_of_mem _ hj)
      simp [hi, hrest]

namespace Allocation

variable {attachments : List Attachment} {selection : Selection} {budget : Budget} {a : Allocation}

/-- An explicit selection or a budget with a cap can be allocated. -/
theorem exists_of (h : selection.isExplicit = true ∨ budget.isLimited = true)
    (attachments : List Attachment) : ∃ a, Allocation.of attachments selection budget = .ok a := by
  unfold Allocation.of
  by_cases hexplicit : selection.isExplicit = true
  · rw [if_pos hexplicit]
    exact ⟨_, rfl⟩
  · have hlimited := h.resolve_left hexplicit
    rw [if_neg hexplicit, Budget.validate, if_pos hlimited]
    exact ⟨_, rfl⟩

/-- The decisions of a table whose rows have their places are in the order of the list. -/
theorem index_of_keys {rows : List Row}
    (hkeys : rows.map Row.key = (uncharged attachments).map Row.key) :
    (rows.map (·.2)).map Decision.index = List.range attachments.length := by
  have hindex : ∀ rows : List Row,
      (rows.map (·.2)).map Decision.index = (rows.map Row.key).map (·.2.1) := by
    intro rows
    simp [Row.key]
  rw [hindex, hkeys, ← hindex]
  simp [uncharged, Function.comp_def, List.range_eq_range', ← List.zipIdx_map_snd]

/-- There is one decision for every attachment, in the order of the list. -/
theorem index_decisions (h : Allocation.of attachments selection budget = .ok a) :
    a.decisions.map Decision.index = List.range attachments.length := by
  unfold Allocation.of at h
  by_cases hexplicit : selection.isExplicit = true
  · rw [if_pos hexplicit, Except.ok.injEq] at h
    subst h
    simp [decisionBySelection, Function.comp_def, List.range_eq_range', ← List.zipIdx_map_snd]
  · rw [if_neg hexplicit] at h
    cases hvalid : budget.validate with
    | error e => simp [hvalid, Except.map] at h
    | ok _ =>
        simp only [hvalid, Except.map, Except.ok.injEq] at h
        subst h
        exact index_of_keys (serveAll_keys budget _ (uncharged attachments) Category.all)

/-- The items at the positions that decisions ship, where the decisions are on the items behind
some others. -/
theorem filterMap_ships {α : Type} (before items : List α) (decisions : List Decision)
    (h : decisions.map Decision.index = List.range' before.length items.length) :
    (((decisions.filter (·.verdict.ships)).map Decision.index).filterMap
        fun i => (before ++ items)[i]?) =
      ((items.zip decisions).filter fun p => p.2.verdict.ships).map Prod.fst := by
  induction items generalizing before decisions with
  | nil =>
      have hnone : decisions = [] := by simpa using h
      simp [hnone]
  | cons item items ih =>
      cases decisions with
      | nil => simp [List.range'_succ] at h
      | cons d decisions =>
          rw [List.map_cons, List.length_cons, List.range'_succ, List.cons.injEq] at h
          have hrest := ih (before ++ [item]) decisions (by simpa using h.2)
          have hitem : (before ++ item :: items)[d.index]? = some item := by simp [h.1]
          rw [List.append_assoc, List.singleton_append] at hrest
          cases hships : d.verdict.ships <;> simp [hships, hitem, hrest]

/-- **What ships are the attachments with a decision to ship, in the order of the list.** -/
theorem pick_eq (h : Allocation.of attachments selection budget = .ok a) :
    a.pick attachments =
      ((attachments.zip a.decisions).filter fun p => p.2.verdict.ships).map Prod.fst := by
  have hindex : a.decisions.map Decision.index = List.range' 0 attachments.length := by
    rw [index_decisions h, List.range_eq_range']
  exact filterMap_ships [] attachments a.decisions hindex

/-- Every position that ships is one of the list. -/
theorem lt_of_mem_shipped (h : Allocation.of attachments selection budget = .ok a) :
    ∀ i ∈ a.shipped, i < attachments.length := by
  intro i hi
  obtain ⟨d, hd, rfl⟩ := List.mem_map.mp hi
  have hindex : d.index ∈ a.decisions.map Decision.index :=
    List.mem_map_of_mem (List.mem_filter.mp hd).1
  rw [index_decisions h] at hindex
  exact List.mem_range.mp hindex

theorem length_pick (h : Allocation.of attachments selection budget = .ok a) :
    (a.pick attachments).length = a.shipped.length :=
  length_filterMap_getElem? (lt_of_mem_shipped h)

/-- The positions that ship ascend. -/
theorem shipped_ascends (h : Allocation.of attachments selection budget = .ok a) :
    a.shipped.Pairwise (· < ·) := by
  have hpart : a.shipped.Sublist (a.decisions.map Decision.index) := List.filter_sublist.map _
  rw [index_decisions h] at hpart
  exact List.pairwise_lt_range.sublist hpart

/-- What ships are the attachments at the positions that ship, one for each. -/
theorem map_some_pick (h : Allocation.of attachments selection budget = .ok a) :
    (a.pick attachments).map some = a.shipped.map fun i => attachments[i]? := by
  have hfound := lt_of_mem_shipped h
  unfold pick
  generalize a.shipped = positions at hfound
  induction positions with
  | nil => rfl
  | cons i positions ih =>
      have hi := hfound i List.mem_cons_self
      have hrest := ih fun j hj => hfound j (List.mem_cons_of_mem _ hj)
      simp [hi, hrest]

end Allocation

end ListingQuery
