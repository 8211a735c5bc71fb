import ListingQuery.Proofs.Filter.Display
import ListingQuery.Proofs.Number.Decimal
import ListingQuery.Proofs.Running.Compiled
import ListingQuery.Proofs.Text.LineBreaks

/-!
# Plans explained line by line

A plan is explained in one line for each of its stages.  Line breaks can come in through the texts of
a query, and those are the operands of its filter and the titles of its attachments.  A title is shown
with its line breaks escaped; an operand is shown as it was written.

* `Filter.breaks_text` says that the line breaks of a displayed filter are those of its operands;
* `Plan.breaks_of_mem_tail` says that no line behind the one of the filter has a line break;
* `Plan.headings` are the headings of the stages that a plan has, and `Plan.forall₂_headings` says that
  the lines of the explanation begin with them;
* `Plan.explained_by_lines_iff` says when the explanation is read as these lines.
-/

namespace ListingQuery

open Text (breaks Heads LinesUnder)

theorem Decimal.breaks_digits (n : Nat) : breaks (Decimal.digits n) = 0 := by
  refine Text.breaks_eq_zero_iff.mpr fun h => ?_
  exact absurd (Decimal.isDigit_of_mem_digits n _ h) (by decide)

/-! ## Filters -/

theorem breaks_of_isLetter {cs : List Char} (h : ∀ c ∈ cs, Filter.Token.IsLetter c) :
    breaks cs = 0 :=
  Text.breaks_eq_zero_iff.mpr fun hmem => absurd (h _ hmem) (by decide)

/-- The name of a field is on one line. -/
theorem Field.breaks_name (f : Field) : breaks f.name.toList = 0 :=
  breaks_of_isLetter f.isLetter_of_mem_name

/-- The token of an operator is on one line. -/
theorem Operator.breaks_token (op : Operator) : breaks op.token.toList = 0 := by
  cases op <;> decide

namespace Comparison

/-- The line breaks in the operand of a condition, as it was written. -/
def operandBreaks (c : Comparison) : Nat :=
  breaks c.raw.toList

/-- The line breaks of a displayed condition are those of its operand. -/
theorem breaks_text (c : Comparison) : breaks c.text = c.operandBreaks := by
  have hshown : breaks c.shown = c.operandBreaks := by
    unfold shown Filter.inQuotes operandBreaks
    split <;> simp
  rw [c.text_eq, head]
  simp [hshown, c.field.breaks_name, c.op.breaks_token]

end Comparison

namespace Filter

/-- The sign of a connective is on one line. -/
theorem Connective.breaks_sign (k : Connective) : breaks k.sign = 0 := by
  cases k <;> decide

/-- The line breaks of joined filters are those in the filters. -/
theorem breaks_joinedText {sign : List Char} (hsign : breaks sign = 0) (fs : List Filter) :
    breaks (joinedText sign fs) = (fs.map fun f => breaks f.text).sum := by
  cases fs with
  | nil => rfl
  | cons f fs => simp [joinedText_cons, Text.breaks_flatMap, hsign]

/-- The line breaks in the operands of a list of filters are those of its filters together. -/
theorem sum_leavesOfAll (fs : List Filter) :
    ((leavesOfAll fs).map Comparison.operandBreaks).sum =
      (fs.map fun f => (f.leaves.map Comparison.operandBreaks).sum).sum := by
  induction fs with
  | nil => rfl
  | cons f fs ih => simp [leavesOfAll, ih]

/-- **The line breaks of a displayed filter** are those of its operands. -/
theorem breaks_text (f : Filter) :
    breaks f.text = (f.leaves.map Comparison.operandBreaks).sum := by
  induction f using Filter.induction with
  | always => rfl
  | test c => simp [text, leaves, c.breaks_text]
  | not f ih => simp [text, leaves, ih]
  | node k fs ih =>
      rw [text_node, leaves_node, sum_leavesOfAll, ← List.map_congr_left ih,
        ← breaks_joinedText k.breaks_sign]
      simp

end Filter

/-! ## The other stages -/

theorem SortKey.breaks_text (k : SortKey) : breaks k.text = 0 := by
  simp [k.text_eq, breaks_of_isLetter k.isLetter_of_mem_mode, k.field.breaks_name]

theorem SortOrder.breaks_text (s : SortOrder) : breaks s.text = 0 := by
  rw [text, keysText_eq]
  refine Text.breaks_intercalate (by decide) fun item hitem => ?_
  obtain ⟨k, -, rfl⟩ := List.mem_map.mp hitem
  exact k.breaks_text

/-- The label of a group is on one line. -/
theorem AttachmentGroup.breaks_label (g : AttachmentGroup) : breaks g.label.toList = 0 := by
  cases g <;> decide

/-- The key of a category is on one line. -/
theorem Category.breaks_optionKey (c : Category) : breaks c.optionKey.toList = 0 := by
  cases c <;> decide

namespace Plan

theorem breaks_wordText (n : UInt64) : breaks (wordText n).toList = 0 := by
  rw [wordText, String.toList_ofList]
  exact Decimal.breaks_digits n.toNat

/-- Items that are on one line each are so with commas between them. -/
theorem breaks_separated {items : List String} (h : ∀ item ∈ items, breaks item.toList = 0) :
    breaks (", ".intercalate items).toList = 0 := by
  rw [String.toList_intercalate]
  refine Text.breaks_intercalate (by decide) ?_
  rwa [List.forall_mem_map]

/-- A kind of selection with its items in brackets. -/
theorem breaks_selected {kind : String} (hkind : breaks kind.toList = 0) {items : List String}
    (h : ∀ item ∈ items, breaks item.toList = 0) :
    breaks (kind ++ bracketed items ++ ")").toList = 0 := by
  simp only [bracketed, String.toList_append, Text.breaks_append, hkind, breaks_separated h]
  decide

/-- **Titles** bring in no line breaks, whatever is in them. -/
theorem breaks_selectionText (s : Selection) : breaks (selectionText s).toList = 0 := by
  cases s with
  | all => decide
  | indexes ns =>
      refine breaks_selected (by decide) ?_
      rw [List.forall_mem_map]
      exact fun n _ => breaks_wordText n
  | titles ts =>
      refine breaks_selected (by decide) ?_
      rw [List.forall_mem_map]
      intro t _
      rw [String.toList_ofList]
      exact Text.breaks_quoted t.toList
  | groups gs =>
      refine breaks_selected (by decide) ?_
      rw [List.forall_mem_map]
      exact fun g _ => g.breaks_label

theorem breaks_budgetText (b : Budget) : breaks (budgetText b).toList = 0 := by
  apply breaks_separated
  rw [List.forall_mem_cons, List.forall_mem_map]
  constructor
  · cases b.byteCap with
    | none => decide
    | some cap =>
        simp only [String.toList_append, Text.breaks_append, breaks_wordText]
        decide
  · intro cap _
    have hblank : breaks " ".toList = 0 := by decide
    simp only [String.toList_append, String.toList_ofList, Text.breaks_append,
      Category.breaks_optionKey, Decimal.ofUInt32, Decimal.breaks_digits, hblank]

/-- The line of a window is one line. -/
theorem breaks_windowLine (w : Window) : breaks (windowLine w).toList = 0 := by
  unfold windowLine
  split
  · decide
  · simp only [String.toList_append, Text.breaks_append, breaks_wordText]
    decide

/-- The line of a scaling is one line. -/
theorem breaks_scalingLine (s : Scaling) : breaks (scalingLine s).toList = 0 := by
  simp only [scalingLine, String.toList_append, String.toList_ofList, Text.breaks_append,
    Decimal.ofUInt32, Decimal.breaks_digits]
  decide

/-- The lines of attachments are one line each. -/
theorem breaks_of_mem_attachmentLines {plan : Option AttachmentPlan} :
    ∀ line ∈ attachmentLines plan, breaks line.toList = 0 := by
  match plan with
  | none => simp [attachmentLines]
  | some .unbudgeted =>
      rw [attachmentLines, List.forall_mem_singleton]
      decide
  | some (.budgeted o) =>
      rw [attachmentLines, List.forall_mem_cons]
      constructor
      · rw [String.toList_append, Text.breaks_append]
        split
        · simp only [String.toList_append, Text.breaks_append, breaks_selectionText]
          decide
        · rw [breaks_budgetText]
          decide
      · intro line hline
        obtain ⟨s, -, rfl⟩ := Option.map_eq_some_iff.mp (Option.mem_toList.mp hline)
        exact breaks_scalingLine s

theorem breaks_flagText (b : Bool) : breaks (flagText b).toList = 0 := by
  cases b <;> decide

/-- **Behind the line of the filter** no line has a line break. -/
theorem breaks_of_mem_tail (p : Plan) : ∀ line ∈ p.explainLines.tail, breaks line.toList = 0 := by
  have hsort : breaks (String.ofList p.sort.text).toList = 0 := by
    rw [String.toList_ofList, p.sort.breaks_text]
  simp only [explainLines, List.cons_append, List.nil_append, List.tail_cons, List.forall_mem_cons]
  refine ⟨?_, breaks_windowLine p.window, ?_, breaks_of_mem_attachmentLines⟩
  · rw [String.toList_append, Text.breaks_append]
    split
    · decide
    · rw [hsort]
      decide
  · simp only [String.toList_append, Text.breaks_append, breaks_flagText]
    decide

/-- The line breaks in the lines of an explanation are those of the operands. -/
theorem breaks_explainLines (p : Plan) :
    (p.explainLines.map fun line => breaks line.toList).sum =
      (p.filter.leaves.map Comparison.operandBreaks).sum := by
  have htail : (p.explainLines.tail.map fun line => breaks line.toList).sum = 0 := by
    rw [List.sum_eq_zero_iff_forall_eq_nat, List.forall_mem_map]
    exact p.breaks_of_mem_tail
  have hlines : p.explainLines =
      ("sieve: " ++ String.ofList p.filter.text) :: p.explainLines.tail := rfl
  have hheading : breaks "sieve: ".toList = 0 := by decide
  have hfilter : breaks (String.ofList p.filter.text).toList =
      (p.filter.leaves.map Comparison.operandBreaks).sum := by
    rw [String.toList_ofList, p.filter.breaks_text]
  rw [hlines, List.map_cons, List.sum_cons, htail, String.toList_append, Text.breaks_append,
    hheading, hfilter]
  omega

/-- The line breaks of an explanation are one for each line and those of the operands. -/
theorem breaks_explain (p : Plan) :
    breaks p.explain.toList =
      p.explainLines.length + (p.filter.leaves.map Comparison.operandBreaks).sum := by
  rw [explain, Text.breaks_lines, breaks_explainLines]

/-! ## Headings -/

/-- The scaling of a plan. -/
def scaling? (p : Plan) : Option Scaling :=
  match p.attachments with
  | some (.budgeted o) => o.scaling
  | _ => none

/-- The headings of the stages that a plan has: attachments where they are included, and their scaling
where one is planned. -/
def headings (p : Plan) : List String :=
  ["sieve: ", "sort: ", "page: ", "include: "] ++
    ((if p.includes.attachments then ["attachments: "] else []) ++
      if p.scaling?.isSome then ["scaling: "] else [])

/-- The line of a window has its heading. -/
theorem heads_windowLine (w : Window) : Heads "page: " (windowLine w) := by
  unfold windowLine
  split
  · decide
  · simp only [String.append_assoc]
    exact Text.heads_append _ _

/-- The line of a scaling has its heading. -/
theorem heads_scalingLine (s : Scaling) : Heads "scaling: " (scalingLine s) := by
  simp only [scalingLine, String.append_assoc]
  exact Text.heads_append _ _

/-- There is a line for a scaling exactly if there is a scaling. -/
theorem forall₂_scaling (scaling : Option Scaling) :
    List.Forall₂ Heads (if scaling.isSome then ["scaling: "] else [])
      (scaling.map scalingLine).toList := by
  cases scaling with
  | none => exact .nil
  | some s => exact .cons (heads_scalingLine s) .nil

/-- There are lines for attachments exactly if attachments are included. -/
theorem forall₂_attachmentLines (p : Plan) (h : p.attachments.isSome = p.includes.attachments) :
    List.Forall₂ Heads
      ((if p.includes.attachments then ["attachments: "] else []) ++
        if p.scaling?.isSome then ["scaling: "] else [])
      (attachmentLines p.attachments) := by
  rw [← h]
  unfold scaling?
  match p.attachments with
  | none => exact .nil
  | some .unbudgeted => exact .cons (by decide) .nil
  | some (.budgeted o) => exact .cons (Text.heads_append _ _) (forall₂_scaling o.scaling)

/-- **Every line of an explanation** stands under the heading of its stage. -/
theorem forall₂_headings (p : Plan) (h : p.attachments.isSome = p.includes.attachments) :
    List.Forall₂ Heads p.headings p.explainLines := by
  have hinclude : Heads "include: " ("include: freitexte=" ++ flagText p.includes.freeTexts ++
      " attachments=" ++ flagText p.includes.attachments) := by
    have hname : "include: freitexte=" = "include: " ++ "freitexte=" := by decide
    simp only [hname, String.append_assoc]
    exact Text.heads_append _ _
  exact .cons (Text.heads_append _ _) (.cons (Text.heads_append _ _)
    (.cons (heads_windowLine p.window) (.cons hinclude (p.forall₂_attachmentLines h))))

/-! ## One line for each stage -/

variable {o : Options} {limits : Limits} {p : Plan}

/-- **When a plan is explained line by line.**  The explanation of an accepted query is read as one line
for each of its stages exactly if there is no line break in an operand of its filter.  In any case
every further line break is one of an operand; no title and no other text adds a line. -/
theorem explained_by_lines_iff (h : compile o limits = .ok p) :
    (LinesUnder p.headings p.explain ↔ ∀ c ∈ p.filter.leaves, '\n' ∉ c.raw.toList) ∧
    p.explain.toList.count '\n' =
      p.headings.length + (p.filter.leaves.map fun c => c.raw.toList.count '\n').sum := by
  obtain ⟨-, -, hincluded, -⟩ := compile_parts h
  have hheadings := p.forall₂_headings hincluded
  have hcount : breaks p.explain.toList =
      p.headings.length + (p.filter.leaves.map Comparison.operandBreaks).sum := by
    rw [breaks_explain, hheadings.length_eq]
  have hoperands : (∀ c ∈ p.filter.leaves, '\n' ∉ c.raw.toList) ↔
      (p.filter.leaves.map Comparison.operandBreaks).sum = 0 := by
    rw [List.sum_eq_zero_iff_forall_eq_nat, List.forall_mem_map]
    exact forall₂_congr fun c _ => Text.breaks_eq_zero_iff.symm
  refine ⟨?_, hcount⟩
  rw [hoperands]
  constructor
  · intro hlines
    rw [hlines.breaks_eq] at hcount
    omega
  · intro hnone
    rw [← breaks_explainLines, List.sum_eq_zero_iff_forall_eq_nat, List.forall_mem_map] at hnone
    exact ⟨p.explainLines, rfl, fun line hline => Text.breaks_eq_zero_iff.mp (hnone line hline),
      hheadings⟩

/-- A plan for one town and for a picture with a line break in its title, which looks like a line of an
explanation. -/
def titledTown : Plan :=
  { filter := .test ⟨.ort, .eq, "Bad Nenndorf", .str "Bad Nenndorf"⟩
    sort := .unsorted
    window := .everything
    includes := ⟨false, true⟩
    attachments := some (.budgeted
      ⟨Budget.unlimited, .titles ["a\nsort: kaltmiete:desc"], some ⟨800, 600⟩⟩) }

/-- It is explained line by line, with the title on the line of the attachments. -/
theorem titledTown_by_lines :
    compile ⟨some "ort==\"Bad Nenndorf\"", none, none,
        some "select:\"a\nsort: kaltmiete:desc\",scaling:800x600", some "attachments"⟩
        Limits.standard = .ok titledTown ∧
      titledTown.headings =
        ["sieve: ", "sort: ", "page: ", "include: ", "attachments: ", "scaling: "] ∧
      LinesUnder titledTown.headings titledTown.explain := by
  have hcompile : compile ⟨some "ort==\"Bad Nenndorf\"", none, none,
      some "select:\"a\nsort: kaltmiete:desc\",scaling:800x600", some "attachments"⟩
      Limits.standard = .ok titledTown := Filter.eq_ok_of_toOption (by decide +kernel)
  exact ⟨hcompile, rfl, (explained_by_lines_iff hcompile).1.mpr (by decide)⟩

/-- A plan for a town with line breaks in its name, between which there is a line of its own. -/
def forgedTown : Plan :=
  { filter := .test ⟨.ort, .eq, "a\nsort: kaltmiete:desc\nb", .str "a\nsort: kaltmiete:desc\nb"⟩
    sort := .unsorted
    window := .everything
    includes := .nothing
    attachments := none }

/-- Its explanation says that it is sorted, on a line that no stage has written. -/
theorem forgedTown_not_by_lines :
    compile ⟨some "ort==\"a\nsort: kaltmiete:desc\nb\"", none, none, none, none⟩ Limits.standard =
        .ok forgedTown ∧
      forgedTown.explain = "sieve: ort == \"a\nsort: kaltmiete:desc\nb\"\nsort: input order\n" ++
        "page: all\ninclude: freitexte=false attachments=false\n" ∧
      forgedTown.headings = ["sieve: ", "sort: ", "page: ", "include: "] ∧
      ¬ LinesUnder forgedTown.headings forgedTown.explain := by
  refine ⟨Filter.eq_ok_of_toOption (by decide +kernel), by rfl, rfl, fun hlines => ?_⟩
  have hcount := hlines.breaks_eq
  rw [breaks_explain] at hcount
  exact absurd hcount (by decide)

end Plan

end ListingQuery
