import ListingQuery.Engine
import ListingQuery.Proofs.Calendar.MomentText
import ListingQuery.Proofs.Filter.Operands
import ListingQuery.Proofs.Filter.Words
import ListingQuery.Proofs.Json.Faithful
import ListingQuery.Proofs.Running.Compiled

/-!
# The text that is hashed

The digest of a plan is taken of two texts on one line, that of the plan and that of the limits.  No
part of a plan is lost in its tree: every kind of value, filter and selection has a key of its own,
names are told apart, and what is left out of a budget is what is not set.  The texts of floating point
numbers tell them as long as they are finite, which the operands of a plan that was made are.

* `Value.toJson_injective` and `Filter.toJson_injective` are the trees of operands and filters;
* `Budget.toJson_injective` recovers the caps that are not set;
* `Plan.faithful` and `Limits.faithful` are the two texts;
* `Plan.equal_texts_iff` says that different queries have different texts.
-/

namespace ListingQuery

open Json (Faithful)

/-- Lists are the same if their items are told apart. -/
theorem eq_of_map_eq {α β : Type} {f : α → β} {as bs : List α}
    (h : ∀ a ∈ as, ∀ b, f a = f b → a = b) (hmap : as.map f = bs.map f) : as = bs := by
  induction as generalizing bs with
  | nil => exact (List.map_eq_nil_iff.mp hmap.symm).symm
  | cons a as ih =>
      cases bs with
      | nil => cases hmap
      | cons b bs =>
          obtain ⟨hfirst, hrest⟩ := List.cons.inj hmap
          rw [h a List.mem_cons_self b hfirst,
            ih (fun a ha => h a (List.mem_cons_of_mem _ ha)) hrest]

/-! ## Values -/

namespace Value

/-- What holds of a value whenever it holds of its items holds of all values. -/
theorem induction {motive : Value → Prop} (int : ∀ i, motive (.int i))
    (float : ∀ x, motive (.float x)) (bool : ∀ b, motive (.bool b)) (date : ∀ m, motive (.date m))
    (str : ∀ s, motive (.str s)) (list : ∀ items, (∀ v ∈ items, motive v) → motive (.list items))
    (v : Value) : motive v :=
  -- the recursor of the nested type, with the motive of lists spelled out
  @Value.rec motive (fun vs => ∀ v ∈ vs, motive v) int float bool date str list (by simp)
    (fun _ _ hv hvs => List.forall_mem_cons.mpr ⟨hv, hvs⟩) v

/-- The trees of items are written one by one. -/
theorem itemsToJson_eq (items : List Value) : itemsToJson items = items.map toJson := by
  induction items with
  | nil => rfl
  | cons v vs ih => rw [itemsToJson, ih, List.map_cons]

/-- **Different values have different trees.** -/
theorem toJson_injective : Function.Injective toJson := by
  intro v
  induction v using induction with
  | list items ih =>
      intro w h
      cases w with
      | list others =>
          simp only [toJson, itemsToJson_eq, Json.object.injEq, List.cons.injEq, Prod.mk.injEq,
            Json.array.injEq, true_and, and_true] at h
          rw [eq_of_map_eq (fun a ha b => @ih a ha b) h]
      | _ => simp [toJson] at h
  | date m =>
      intro w h
      cases w with
      | date n =>
          simp only [toJson, Json.object.injEq, List.cons.injEq, Prod.mk.injEq, Json.str.injEq,
            true_and, and_true] at h
          rw [Moment.isoText_injective (String.ofList_injective h)]
      | _ => simp [toJson] at h
  | int i =>
      intro w h
      cases w <;> simp_all [toJson]
  | float x =>
      intro w h
      cases w <;> simp_all [toJson]
  | bool b =>
      intro w h
      cases w <;> simp_all [toJson]
  | str s =>
      intro w h
      cases w <;> simp_all [toJson]

/-- A single value has a tree that its text tells, if it is finite. -/
theorem IsScalar.definite {v : Value} (h : v.IsScalar) : v.toJson.Definite := by
  cases v with
  | float x => exact .object (by simpa using .word (.float h))
  | list items => exact h.elim
  | _ => exact .object (by simp)

/-- A value or a list of single values has a tree that its text tells. -/
theorem IsFlat.definite {v : Value} (h : v.IsFlat) : v.toJson.Definite := by
  cases v with
  | list items =>
      have hitems : (Json.array (itemsToJson items)).Definite := by
        refine .array fun j hj => ?_
        rw [itemsToJson_eq] at hj
        obtain ⟨v, hv, rfl⟩ := List.mem_map.mp hj
        exact (h v hv).definite
      exact .object (by simpa using hitems)
  | _ => exact IsScalar.definite h

end Value

/-! ## Filters -/

theorem Field.name_injective : Function.Injective Field.name := by
  intro f g h
  have hname := f.ofName?_name
  rw [h, g.ofName?_name] at hname
  exact (Option.some.inj hname).symm

/-- Operators are told apart by their names in a tree. -/
theorem Operator.jsonName_injective : Function.Injective Operator.jsonName := by
  have hfind : ∀ op : Operator, Operator.all.find? (·.jsonName == op.jsonName) = some op := by
    intro op
    cases op <;> decide
  intro op op' h
  have hname := hfind op
  rw [h, hfind op'] at hname
  exact (Option.some.inj hname).symm

theorem Comparison.faithful : Faithful Comparison.toJson fun c => c.operand.IsFlat where
  injective := by
    intro c d h
    cases c
    cases d
    simpa [Comparison.toJson, Field.name_injective.eq_iff, Operator.jsonName_injective.eq_iff,
      Value.toJson_injective.eq_iff] using h
  notNull _ := nofun
  definite c h := .object (by simpa using h.definite)

namespace Filter

/-- The trees of filters are written one by one. -/
theorem allToJson_eq (fs : List Filter) : allToJson fs = fs.map toJson := by
  induction fs with
  | nil => rfl
  | cons f fs ih => rw [allToJson, ih, List.map_cons]

/-- **Different filters have different trees.** -/
theorem toJson_injective : Function.Injective toJson := by
  intro f
  induction f using induction with
  | always =>
      intro g h
      cases g <;> simp_all [toJson]
  | test c =>
      intro g h
      cases g <;> simp_all [toJson, Comparison.faithful.injective.eq_iff]
  | not f ih =>
      intro g h
      cases g with
      | not g =>
          simp only [toJson, Json.object.injEq, List.cons.injEq, Prod.mk.injEq, true_and,
            and_true] at h
          rw [ih h]
      | _ => simp [toJson] at h
  | node k fs ih =>
      intro g h
      have hall : ∀ gs, fs.map toJson = gs.map toJson → fs = gs :=
        fun gs => eq_of_map_eq fun a ha b => @ih a ha b
      cases k with
      | conjunction =>
          cases g with
          | and gs =>
              have hgs : fs.map toJson = gs.map toJson := by
                simpa [Connective.node, toJson, allToJson_eq] using h
              exact congrArg Filter.and (hall gs hgs)
          | _ => simp [Connective.node, toJson] at h
      | disjunction =>
          cases g with
          | or gs =>
              have hgs : fs.map toJson = gs.map toJson := by
                simpa [Connective.node, toJson, allToJson_eq] using h
              exact congrArg Filter.or (hall gs hgs)
          | _ => simp [Connective.node, toJson] at h

/-- A filter has a tree that its text tells, if its operands have. -/
theorem definite {f : Filter} (h : ∀ c ∈ f.leaves, c.operand.IsFlat) : f.toJson.Definite := by
  induction f using induction with
  | always => exact .str "True"
  | test c => exact .object (by simpa using Comparison.faithful.definite c (h c (by simp [leaves])))
  | not f ih => exact .object (by simpa using ih h)
  | node k fs ih =>
      have hitems : (Json.array (fs.map toJson)).Definite := by
        refine .array fun j hj => ?_
        obtain ⟨g, hg, rfl⟩ := List.mem_map.mp hj
        exact ih g hg fun c hc => h c (mem_leaves_node hg hc)
      cases k <;> exact .object (by simpa [allToJson_eq] using hitems)

theorem faithful : Faithful toJson fun f => ∀ c ∈ f.leaves, c.operand.IsFlat where
  injective := toJson_injective
  notNull f := by cases f <;> simp [toJson]
  definite _ h := definite h

end Filter

/-! ## Keys, pages and includes -/

theorem SortKey.faithful : Faithful SortKey.toJson fun _ => True where
  injective := by
    intro k l h
    cases k
    cases l
    simpa [SortKey.toJson, Field.name_injective.eq_iff] using h
  notNull _ := nofun
  definite k _ := .object (by simp)

theorem SortOrder.faithful : Faithful SortOrder.toJson fun _ => True where
  injective := by
    intro s t h
    cases s
    cases t
    simpa [SortOrder.toJson, SortKey.faithful.injective.list_map.eq_iff] using h
  notNull _ := nofun
  definite s _ := .object (by simpa using SortKey.faithful.list.definite s.keys fun _ _ => trivial)

theorem Window.faithful : Faithful Window.toJson fun _ => True where
  injective := by
    intro w v h
    cases w
    cases v
    simpa [Window.toJson] using h
  notNull _ := nofun
  definite w _ := .object (by simp)

theorem Includes.faithful : Faithful Includes.toJson fun _ => True where
  injective := by
    intro i j h
    cases i
    cases j
    simpa [Includes.toJson] using h
  notNull _ := nofun
  definite i _ := .object (by simp)

/-! ## Attachments -/

theorem Category.name_injective : Function.Injective Category.name := by
  intro c d h
  cases c <;> cases d <;> simp_all [Category.name]

namespace Budget

/-- The caps that are written are those that are set. -/
theorem mem_countCaps {b : Budget} {c : Category} {cap : UInt32} :
    (c, cap) ∈ b.countCaps ↔ b.countCap c = some cap := by
  have hall : c ∈ Category.all := by
    cases c <;> decide
  simp [countCaps, hall]

/-- **Different budgets have different trees**, though caps that are not set are left out. -/
theorem toJson_injective : Function.Injective toJson := by
  intro b d h
  have hparts : b.byteCap = d.byteCap ∧
      b.countCaps.map (fun cap => (cap.1.name, Json.ofUInt32 cap.2)) =
        d.countCaps.map (fun cap => (cap.1.name, Json.ofUInt32 cap.2)) := by
    simpa [toJson] using h
  have hcaps : b.countCaps = d.countCaps := by
    refine eq_of_map_eq (fun cap _ cap' hsame => ?_) hparts.2
    obtain ⟨hname, hcount⟩ := Prod.mk.inj hsame
    exact Prod.ext (Category.name_injective hname) (Json.ofUInt32_inj.mp hcount)
  have hcount : ∀ c, b.countCap c = d.countCap c := by
    intro c
    apply Option.ext
    intro cap
    rw [← mem_countCaps, ← mem_countCaps, hcaps]
  cases b
  cases d
  simp only [mk.injEq]
  exact ⟨hparts.1, hcount .picture, hcount .floorplan, hcount .document, hcount .other⟩

theorem faithful : Faithful toJson fun _ => True where
  injective := toJson_injective
  notNull _ := nofun
  definite b _ := by
    have hcaps : (Json.object (b.countCaps.map fun cap =>
        (cap.1.name, Json.ofUInt32 cap.2))).Definite := by
      refine .object fun m hm => ?_
      obtain ⟨cap, -, rfl⟩ := List.mem_map.mp hm
      exact Json.definite_ofUInt32 cap.2
    exact .object (by simpa using hcaps)

end Budget

theorem AttachmentGroup.faithful :
    Faithful (fun g : AttachmentGroup => .str g.name) fun _ => True :=
  .ofCodec AttachmentGroup.codec fun g _ => .str g.name

/-- Selections are written faithfully: the kinds have keys of their own. -/
theorem Selection.faithful : Faithful Selection.toJson fun _ => True where
  injective := by
    intro s t h
    cases s <;> cases t <;>
      simp_all [Selection.toJson, Json.ofStrings, Faithful.uint64.injective.list_map.eq_iff,
        Faithful.str.injective.list_map.eq_iff, AttachmentGroup.faithful.injective.list_map.eq_iff]
  notNull s := by cases s <;> simp [Selection.toJson]
  definite s _ := by
    cases s with
    | all => exact .str "All"
    | indexes ns => exact .object (by simpa using Faithful.uint64.list.definite ns fun _ _ => trivial)
    | titles ts => exact .object (by
        simpa [Json.ofStrings] using Faithful.str.list.definite ts fun _ _ => trivial)
    | groups gs =>
        exact .object (by simpa using AttachmentGroup.faithful.list.definite gs fun _ _ => trivial)

theorem Scaling.faithful : Faithful Scaling.toJson fun _ => True where
  injective := by
    intro s t h
    cases s
    cases t
    simpa [Scaling.toJson] using h
  notNull _ := nofun
  definite s _ := .object (by simp)

/-- What is planned for attachments is written faithfully. -/
theorem AttachmentPlan.faithful : Faithful AttachmentPlan.toJson fun _ => True where
  injective := by
    intro a b h
    cases a with
    | unbudgeted =>
        cases b with
        | unbudgeted => rfl
        | budgeted o => simp [AttachmentPlan.toJson] at h
    | budgeted o =>
        cases b with
        | unbudgeted => simp [AttachmentPlan.toJson] at h
        | budgeted o' =>
            cases o
            cases o'
            simpa [AttachmentPlan.toJson, Budget.toJson_injective.eq_iff,
              Selection.faithful.injective.eq_iff, Scaling.faithful.ofOption_injective.eq_iff]
              using h
  notNull a := by cases a <;> simp [AttachmentPlan.toJson]
  definite a _ := by
    cases a with
    | unbudgeted => exact .str "Unbudgeted"
    | budgeted o =>
        have hoptions : (Json.object [("budget", o.budget.toJson),
            ("selection", o.selection.toJson),
            ("scaling", .ofOption Scaling.toJson o.scaling)]).Definite := by
          refine .object ?_
          simp [Budget.faithful.definite, Selection.faithful.definite,
            Scaling.faithful.definite_ofOption]
        exact .object (by simpa using hoptions)

/-! ## Plans and limits -/

theorem Limits.faithful : Faithful Limits.toJson fun _ => True where
  injective := by
    intro l m h
    cases l
    cases m
    simpa [Limits.toJson, Limits.wordJson] using h
  notNull _ := nofun
  definite l _ := .object (by simp [Limits.wordJson])

namespace Plan

/-- The plans whose operands are those of accepted filters. -/
theorem faithful : Faithful toJson fun p => ∀ c ∈ p.filter.leaves, c.operand.IsFlat where
  injective := by
    intro p q h
    cases p
    cases q
    simpa [toJson, Filter.toJson_injective.eq_iff, SortOrder.faithful.injective.eq_iff,
      Window.faithful.injective.eq_iff, Includes.faithful.injective.eq_iff,
      AttachmentPlan.faithful.ofOption_injective.eq_iff] using h
  notNull _ := nofun
  definite p h := by
    have hsieve : (Json.object [("expr", p.filter.toJson)]).Definite :=
      .object (by simpa using Filter.definite h)
    refine .object ?_
    simp [hsieve, SortOrder.faithful.definite, Window.faithful.definite,
      Includes.faithful.definite, AttachmentPlan.faithful.definite_ofOption]

variable {o o' : Options} {limits limits' : Limits} {p q : Plan}

/-- The operands of a plan are single values and lists of them. -/
theorem isFlat_of_compile (h : compile o limits = .ok p) :
    ∀ c ∈ p.filter.leaves, c.operand.IsFlat := by
  obtain ⟨hfilter, -⟩ := compile_parts h
  cases hsource : o.filter with
  | none =>
      rw [hsource] at hfilter
      rw [← Except.ok.inj hfilter]
      exact fun c hc => absurd hc List.not_mem_nil
  | some source =>
      rw [hsource] at hfilter
      exact Filter.isFlat_of_read hfilter

/-- **The text that is hashed tells the query.**  Two accepted queries have one text only if they are
one plan, and two limits only if they are the same.  So the two texts of a digest are those of no other
plan and of no other limits. -/
theorem equal_texts_iff (hp : compile o limits = .ok p) (hq : compile o' limits' = .ok q) :
    (p.toJson.compact = q.toJson.compact ↔ p = q) ∧
      ∀ l m : Limits, l.toJson.compact = m.toJson.compact ↔ l = m := by
  constructor
  · constructor
    · exact faithful.eq_of_compact (isFlat_of_compile hp) (isFlat_of_compile hq)
    · intro h
      rw [h]
  · intro l m
    constructor
    · exact Limits.faithful.eq_of_compact trivial trivial
    · intro h
      rw [h]

/-- The plan of one condition on the town. -/
def townPlan (operand : Value) : Plan :=
  ⟨.test ⟨.ort, .eq, "2", operand⟩, .unsorted, .everything, .nothing, none⟩

/-- A number and the same number in quotes are one raw text, and are hashed apart. -/
theorem quoted_number_hashed_apart :
    compile { Options.unset with filter := some "ort==2" } Limits.standard =
        .ok (townPlan (.int 2)) ∧
      compile { Options.unset with filter := some "ort==\"2\"" } Limits.standard =
        .ok (townPlan (.str "2")) ∧
      (townPlan (.int 2)).toJson.compact ≠ (townPlan (.str "2")).toJson.compact := by
  have hplain : compile { Options.unset with filter := some "ort==2" } Limits.standard =
      .ok (townPlan (.int 2)) := Filter.eq_ok_of_toOption (by decide +kernel)
  have hquoted : compile { Options.unset with filter := some "ort==\"2\"" } Limits.standard =
      .ok (townPlan (.str "2")) := Filter.eq_ok_of_toOption (by decide +kernel)
  refine ⟨hplain, hquoted, ?_⟩
  intro h
  exact absurd ((equal_texts_iff hplain hquoted).1.mp h) (by decide)

end Plan

end ListingQuery
