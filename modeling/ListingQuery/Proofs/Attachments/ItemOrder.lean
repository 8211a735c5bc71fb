import ListingQuery.Proofs.Attachments.ItemText
import Mathlib.Data.List.Basic

/-!
# The order of attachment items

Options gather what the items of a list say for themselves: of each cap the last one, the selectors in
their order, and the resolution.  A list of items is refused only for a second resolution or for
selectors of two kinds.

Each part of the options is said by the items of one key.  Items of different keys may therefore
change places.

* `AttachmentOptions.Gathers` says which options a list of items gives, and `Gathers.unique` that it
  says all;
* `Gathers.add` is the step from an item to the next, `readItems_gathers` the run over a list;
* `ItemText.KeepsOrder` compares two lists key by key, `Gathers.of_keepsOrder` passes options on;
* `AttachmentOptions.items_act_independently` puts these together.
-/

namespace ListingQuery

/-! ## Parts of options -/

namespace Budget

/-- A cap on a category leaves the cap on bytes as it is. -/
@[simp] theorem byteCap_withCountCap (b : Budget) (c : Category) (cap : UInt32) :
    (b.withCountCap c cap).byteCap = b.byteCap := by
  cases c <;> rfl

/-- A cap on a category is the cap on that one and on no other. -/
@[simp] theorem countCap_withCountCap (b : Budget) (c d : Category) (cap : UInt32) :
    (b.withCountCap c cap).countCap d = if d = c then some cap else b.countCap d := by
  cases c <;> cases d <;> rfl

/-- A cap on bytes leaves those on categories as they are. -/
@[simp] theorem countCap_of_byteCap (b : Budget) (cap : Option UInt64) (c : Category) :
    { b with byteCap := cap }.countCap c = b.countCap c := by
  cases c <;> rfl

/-- A budget of bytes has the cap on bytes that it was made with. -/
@[simp] theorem byteCap_ofBytes (cap : Option UInt64) : (ofBytes cap).byteCap = cap :=
  rfl

/-- A budget of bytes caps no category. -/
@[simp] theorem countCap_ofBytes (cap : Option UInt64) (c : Category) :
    (ofBytes cap).countCap c = none := by
  cases c <;> rfl

/-- A budget is its cap on bytes and those on categories. -/
theorem eq_of_caps {b b' : Budget} (hbytes : b.byteCap = b'.byteCap)
    (hcounts : ∀ c, b.countCap c = b'.countCap c) : b = b' := by
  have hpictures := hcounts .picture
  have hfloorplans := hcounts .floorplan
  have hdocuments := hcounts .document
  have hothers := hcounts .other
  cases b
  cases b'
  simp_all [countCap]

end Budget

namespace Selection

/-- The kind of the selectors of a selection. -/
def kind? : Selection → Option String
  | .all => none
  | .indexes _ => some "index"
  | .titles _ => some "title"
  | .groups _ => some "group"

/-- A selector is added to selectors of its kind. -/
theorem exists_push {sel : Selection} {s : Selector}
    (hkind : ∀ kind, sel.kind? = some kind → kind = s.kind) :
    ∃ sel', sel.push s = .ok sel' ∧ sel'.selectors = sel.selectors ++ [s] ∧
      sel'.kind? = some s.kind := by
  cases sel <;> cases s
  all_goals first
    | exact ⟨_, rfl, by simp [selectors], rfl⟩
    | exact absurd (hkind _ rfl) (by simp [Selector.kind])

/-- A selection is its kind and its selectors. -/
theorem eq_of_selectors {sel sel' : Selection} (hkind : sel.kind? = sel'.kind?)
    (h : sel.selectors = sel'.selectors) : sel = sel' := by
  cases sel <;> cases sel'
  all_goals first
    | rfl
    | exact congrArg _ ((List.map_inj_right fun _ _ => Selector.index.inj).mp h)
    | exact congrArg _ ((List.map_inj_right fun _ _ => Selector.title.inj).mp h)
    | exact congrArg _ ((List.map_inj_right fun _ _ => Selector.group.inj).mp h)
    | exact absurd hkind (by simp [kind?])

end Selection

/-! ## Gathering -/

namespace AttachmentOptions

/-- The last value that parts give. -/
def last? {α : Type} (say : AttachmentOptions → Option α) (parts : List AttachmentOptions) :
    Option α :=
  (parts.filterMap say).getLast?

/-- The selectors of parts, in their order. -/
def allSelectors (parts : List AttachmentOptions) : List Selector :=
  parts.flatMap (·.selection.selectors)

/-- Parts with at most one resolution and with selectors of one kind. -/
structure Compatible (parts : List AttachmentOptions) : Prop where
  scaling : (parts.filterMap (·.scaling)).length ≤ 1
  kinds : ∀ s ∈ allSelectors parts, ∀ t ∈ allSelectors parts, s.kind = t.kind

/-- Options that hold of each cap the last one that parts give, all their selectors, and their
resolution. -/
structure Gathers (o : AttachmentOptions) (parts : List AttachmentOptions) : Prop where
  byteCap : o.budget.byteCap = last? (·.budget.byteCap) parts
  countCap : ∀ c, o.budget.countCap c = last? (·.budget.countCap c) parts
  selectors : o.selection.selectors = allSelectors parts
  kind : o.selection.kind? = (allSelectors parts).head?.map Selector.kind
  scaling : o.scaling = last? (·.scaling) parts

/-- **Nothing more is said.** -/
theorem Gathers.unique {o o' : AttachmentOptions} {parts : List AttachmentOptions}
    (h : Gathers o parts) (h' : Gathers o' parts) : o = o' := by
  have hbudget : o.budget = o'.budget := Budget.eq_of_caps (h.byteCap.trans h'.byteCap.symm)
    fun c => (h.countCap c).trans (h'.countCap c).symm
  have hselection : o.selection = o'.selection := Selection.eq_of_selectors
    (h.kind.trans h'.kind.symm) (h.selectors.trans h'.selectors.symm)
  have hscaling : o.scaling = o'.scaling := h.scaling.trans h'.scaling.symm
  cases o
  cases o'
  simp_all

/-- Where no part has said anything, nothing is set. -/
theorem gathers_nil : Gathers unset [] where
  byteCap := rfl
  countCap := fun c => by cases c <;> rfl
  selectors := rfl
  kind := rfl
  scaling := rfl

/-- What the last of more parts says is what the new one says, or else what was said before. -/
theorem last?_concat {α : Type} (say : AttachmentOptions → Option α)
    (parts : List AttachmentOptions) (p : AttachmentOptions) :
    last? say (parts ++ [p]) = (say p).or (last? say parts) := by
  cases hsay : say p <;> simp [last?, hsay]

/-- The selectors of one more part come behind the others. -/
theorem allSelectors_concat (parts : List AttachmentOptions) (p : AttachmentOptions) :
    allSelectors (parts ++ [p]) = allSelectors parts ++ p.selection.selectors := by
  simp [allSelectors]

/-- Parts that do not contradict each other do so all the less without the last ones. -/
theorem Compatible.of_append {parts more : List AttachmentOptions}
    (h : Compatible (parts ++ more)) : Compatible parts where
  scaling := by
    have hlength := h.scaling
    rw [List.filterMap_append, List.length_append] at hlength
    omega
  kinds := fun s hs t ht => h.kinds s (by simp_all [allSelectors]) t (by simp_all [allSelectors])

/-- Options with the options of one item laid over them: a cap replaces the cap before, selectors
come behind the selectors before. -/
structure LaidOver (o p o' : AttachmentOptions) : Prop where
  byteCap : o'.budget.byteCap = p.budget.byteCap.or o.budget.byteCap
  countCap : ∀ c, o'.budget.countCap c = (p.budget.countCap c).or (o.budget.countCap c)
  selectors : o'.selection.selectors = o.selection.selectors ++ p.selection.selectors
  kind : o'.selection.kind? =
    o.selection.kind?.or (p.selection.selectors.head?.map Selector.kind)
  scaling : o'.scaling = p.scaling.or o.scaling

/-- **One more part.**  Options that gather parts gather one more when it is laid over them. -/
theorem Gathers.concat {o p o' : AttachmentOptions} {parts : List AttachmentOptions}
    (h : Gathers o parts) (hlaid : LaidOver o p o') : Gathers o' (parts ++ [p]) where
  byteCap := by rw [hlaid.byteCap, h.byteCap, last?_concat]
  countCap := fun c => by rw [hlaid.countCap, h.countCap, last?_concat]
  selectors := by rw [hlaid.selectors, h.selectors, allSelectors_concat]
  kind := by rw [hlaid.kind, h.kind, allSelectors_concat, List.head?_append, Option.map_or]
  scaling := by rw [hlaid.scaling, h.scaling, last?_concat]

/-- A part that says nothing changes nothing. -/
theorem laidOver_unset (o : AttachmentOptions) : LaidOver o unset o := by
  constructor <;> simp [unset, Budget.unlimited, Selection.selectors]

/-- An item is laid over options without a resolution and with selectors of its kind. -/
theorem exists_add {o : AttachmentOptions} {i : AttachmentItem}
    (hscaling : i.options.scaling.isSome → o.scaling = none)
    (hkind : ∀ s ∈ i.options.selection.selectors, ∀ kind, o.selection.kind? = some kind →
      kind = s.kind) :
    ∃ o', o.add i = .ok o' ∧ LaidOver o i.options o' := by
  cases i with
  | bytes n =>
      refine ⟨_, rfl, ?_⟩
      constructor
      all_goals simp [AttachmentItem.options, unset, Selection.selectors]
  | count c cap =>
      refine ⟨_, rfl, ?_⟩
      constructor
      all_goals simp [AttachmentItem.options, unset, Selection.selectors, Budget.unlimited]
      intro d
      split <;> rfl
  | scaling s =>
      have hnone : o.scaling = none := hscaling rfl
      refine ⟨{ o with scaling := some s }, by simp [add, hnone], ?_⟩
      constructor
      all_goals simp [AttachmentItem.options, unset, Selection.selectors, Budget.unlimited]
  | select s =>
      have hone : (AttachmentItem.select s).options.selection.selectors = [s] :=
        Selection.selectors_ofSelector s
      obtain ⟨sel, hpush, hselectors, hpushed⟩ :=
        Selection.exists_push (hkind s (by simp [hone]))
      refine ⟨{ o with selection := sel }, by simp [add, hpush, Except.map], ?_⟩
      constructor
      · simp [AttachmentItem.options, unset, Budget.unlimited]
      · simp [AttachmentItem.options, unset, Budget.unlimited]
      · rw [hone, hselectors]
      · rw [hone, hpushed]
        cases hbefore : o.selection.kind? with
        | none => rfl
        | some kind => rw [hkind s (by simp [hone]) kind hbefore]; rfl
      · rfl

/-- **An item that is compatible with those before it is added to what they gave.** -/
theorem Gathers.exists_add {o : AttachmentOptions} {before : List AttachmentOptions}
    {i : AttachmentItem} (h : Gathers o before) (hparts : Compatible (before ++ [i.options])) :
    ∃ o', o.add i = .ok o' ∧ Gathers o' (before ++ [i.options]) := by
  have hscaling : i.options.scaling.isSome → o.scaling = none := fun hsome => by
    obtain ⟨s, hs⟩ := Option.isSome_iff_exists.mp hsome
    have hlength := hparts.scaling
    rw [List.filterMap_append, List.length_append, List.filterMap_cons_some hs,
      List.length_cons] at hlength
    have hnone : before.filterMap (·.scaling) = [] := List.eq_nil_of_length_eq_zero (by omega)
    rw [h.scaling, last?, hnone, List.getLast?_nil]
  have hkind : ∀ s ∈ i.options.selection.selectors, ∀ kind, o.selection.kind? = some kind →
      kind = s.kind := fun s hs kind hkind => by
    rw [h.kind] at hkind
    obtain ⟨first, hfirst, rfl⟩ := Option.map_eq_some_iff.mp hkind
    have hkinds := hparts.kinds
    rw [allSelectors_concat] at hkinds
    exact hkinds first (List.mem_append_left _ (List.mem_of_head? hfirst)) s
      (List.mem_append_right _ hs)
  obtain ⟨o', hadd, hlaid⟩ := AttachmentOptions.exists_add hscaling hkind
  exact ⟨o', hadd, h.concat hlaid⟩

/-! ## Lists -/

/-- The step from an item of a list to the next. -/
theorem Gathers.exists_step {o : AttachmentOptions} {before : List AttachmentOptions} {t : ItemText}
    (h : Gathers o before) (hparts : Compatible (before ++ [t.options])) :
    ∃ o', (∀ rest, readItems o (t.text :: rest) = readItems o' rest) ∧
      Gathers o' (before ++ [t.options]) := by
  rcases t.eq_unset_or_reads with ⟨hblank, hunset⟩ | ⟨hblank, name, value, i, hcut, hreads, hoptions⟩
  · refine ⟨o, fun rest => by rw [readItems, if_pos hblank], ?_⟩
    rw [hunset]
    exact h.concat (laidOver_unset o)
  · rw [hoptions] at hparts ⊢
    obtain ⟨o', hadd, hgathers⟩ := h.exists_add hparts
    have hitem : readItem o (Text.trim t.text) = .ok o' :=
      readItem_eq_ok_iff.mpr ⟨name, value, i, hcut, hreads, hadd⟩
    refine ⟨o', fun rest => ?_, hgathers⟩
    rw [readItems, if_neg (by simp [hblank]), hitem]

/-- **The run over a list**: its items are added to what was gathered before. -/
theorem Gathers.exists_readItems {items : List ItemText} {o : AttachmentOptions}
    {before : List AttachmentOptions} (h : Gathers o before)
    (hparts : Compatible (before ++ items.map (·.options))) :
    ∃ o', readItems o (items.map (·.text)) = .ok o' ∧
      Gathers o' (before ++ items.map (·.options)) := by
  induction items generalizing o before with
  | nil => exact ⟨o, rfl, by rwa [List.map_nil, List.append_nil]⟩
  | cons t items ih =>
      rw [List.map_cons, List.append_cons] at hparts
      obtain ⟨o₁, hstep, h₁⟩ := h.exists_step hparts.of_append
      obtain ⟨o', hrun, h'⟩ := ih h₁ hparts
      refine ⟨o', ?_, by rwa [List.map_cons, List.append_cons]⟩
      rw [List.map_cons, hstep, hrun]

end AttachmentOptions

namespace ItemText

/-- A list of items as a text. -/
def joined (items : List ItemText) : String :=
  String.ofList (List.intercalate [','] (items.map (·.text)))

/-- The text of items is read item by item. -/
theorem read_joined (items : List ItemText) : AttachmentOptions.read (joined items) =
    AttachmentOptions.readItems .unset (items.map (·.text)) := by
  rw [AttachmentOptions.read, joined, String.toList_ofList]
  cases items with
  | nil => rfl
  | cons t items =>
      rw [AttachmentOptions.splitItems_intercalate (by simp)]
      intro text htext
      obtain ⟨u, -, rfl⟩ := List.mem_map.mp htext
      exact ⟨u.onePiece, u.closed⟩

/-! ## Order -/

/-- Do two lists have the same items of every key, in the same order? -/
def KeepsOrder (items items' : List ItemText) : Prop :=
  ∀ key, items'.filter (·.key = key) = items.filter (·.key = key)

/-- Neighbours of different keys may change places. -/
theorem keepsOrder_swap {t u : ItemText} (hkey : t.key ≠ u.key) (front rest : List ItemText) :
    KeepsOrder (front ++ t :: u :: rest) (front ++ u :: t :: rest) := by
  intro key
  rw [List.filter_append, List.filter_append]
  by_cases ht : t.key = key
  · have hu : u.key ≠ key := fun h => hkey (ht.trans h.symm)
    simp [ht, hu]
  · simp [List.filter_cons, ht]

variable {items items' : List ItemText}

/-- What the items of one key alone say is said in the same order. -/
theorem KeepsOrder.flatMap_eq {α : Type} (h : KeepsOrder items items')
    {say : AttachmentOptions → List α} {key : List Char}
    (hsay : ∀ t : ItemText, say t.options ≠ [] → t.key = key) :
    (items'.map (·.options)).flatMap say = (items.map (·.options)).flatMap say := by
  have hkey : ∀ l : List ItemText, (l.map (·.options)).flatMap say =
      (l.filter (·.key = key)).flatMap (say ·.options) := fun l => by
    induction l with
    | nil => rfl
    | cons t l ih =>
        by_cases ht : t.key = key
        · simp [ht, ih]
        · have hnone : say t.options = [] := Decidable.not_not.mp (mt (hsay t) ht)
          simp [ht, hnone, ih]
  rw [hkey, hkey, h key]

/-- What the items of one key say is not changed by an order that keeps them. -/
theorem KeepsOrder.filterMap_eq {α : Type} (h : KeepsOrder items items')
    {say : AttachmentOptions → Option α} {key : List Char}
    (hsay : ∀ t : ItemText, say t.options ≠ none → t.key = key) :
    (items'.map (·.options)).filterMap say = (items.map (·.options)).filterMap say := by
  rw [List.filterMap_eq_flatMap_toList, List.filterMap_eq_flatMap_toList]
  exact h.flatMap_eq fun t ht => hsay t (mt Option.toList_eq_nil_iff.mpr ht)

/-- What is said last is not changed by an order that keeps the items of each key. -/
theorem KeepsOrder.last?_eq {α : Type} (h : KeepsOrder items items')
    {say : AttachmentOptions → Option α} {key : List Char}
    (hsay : ∀ t : ItemText, say t.options ≠ none → t.key = key) :
    AttachmentOptions.last? say (items'.map (·.options)) =
      AttachmentOptions.last? say (items.map (·.options)) :=
  congrArg List.getLast? (h.filterMap_eq hsay)

/-! ## What the items of a key say -/

/-- What an item says has to be said by an item of its key. -/
theorem key_of_says (t : ItemText) {p : AttachmentOptions → Prop} {key : List Char}
    (h : p t.options) (hunset : ¬ p .unset)
    (hitem : ∀ i : AttachmentItem, p i.options → i.key = key) : t.key = key := by
  rcases t.eq_unset_or_item with hoptions | ⟨i, hoptions, hkey⟩
  · exact absurd (hoptions ▸ h) hunset
  · exact hkey.trans (hitem i (hoptions ▸ h))

/-- Only the item of bytes says something of bytes. -/
theorem key_of_byteCap (t : ItemText) (h : t.options.budget.byteCap ≠ none) :
    t.key = "bytes".toList := by
  refine t.key_of_says (p := (·.budget.byteCap ≠ none)) h (absurd rfl) fun i hi => ?_
  cases i with
  | bytes n => rfl
  | count c cap => exact absurd (Budget.byteCap_withCountCap _ c cap) hi
  | _ => exact absurd rfl hi

/-- Only the item of a category says something of that category. -/
theorem key_of_countCap (t : ItemText) (c : Category) (h : t.options.budget.countCap c ≠ none) :
    t.key = c.optionKey.toList := by
  have hunset : Budget.unlimited.countCap c = none := Budget.countCap_ofBytes none c
  refine t.key_of_says (p := (·.budget.countCap c ≠ none)) h (absurd hunset) fun i hi => ?_
  cases i with
  | count d cap =>
      by_cases hc : c = d
      · rw [hc]
        rfl
      · exact absurd (by simp [AttachmentItem.options, hunset, hc]) hi
  | bytes n => exact absurd (Budget.countCap_ofBytes _ c) hi
  | _ => exact absurd hunset hi

/-- Only the item of a scaling says something of the scaling. -/
theorem key_of_scaling (t : ItemText) (h : t.options.scaling ≠ none) : t.key = "scaling".toList := by
  refine t.key_of_says (p := (·.scaling ≠ none)) h (absurd rfl) fun i hi => ?_
  cases i with
  | scaling s => rfl
  | _ => exact absurd rfl hi

/-- Only items of a selection have selectors. -/
theorem key_of_selectors (t : ItemText) (h : t.options.selection.selectors ≠ []) :
    t.key = "select".toList := by
  refine t.key_of_says (p := (·.selection.selectors ≠ [])) h (absurd rfl) fun i hi => ?_
  cases i with
  | select s => rfl
  | _ => exact absurd rfl hi

end ItemText

namespace AttachmentOptions

/-- **Items of different keys may change places.** -/
theorem Gathers.of_keepsOrder {o : AttachmentOptions} {items items' : List ItemText}
    (h : Gathers o (items.map (·.options))) (horder : ItemText.KeepsOrder items items') :
    Gathers o (items'.map (·.options)) where
  byteCap := by rw [h.byteCap, horder.last?_eq ItemText.key_of_byteCap]
  countCap := fun c => by rw [h.countCap, horder.last?_eq fun t => t.key_of_countCap c]
  selectors := by
    rw [h.selectors, allSelectors, allSelectors, horder.flatMap_eq ItemText.key_of_selectors]
  kind := by rw [h.kind, allSelectors, allSelectors, horder.flatMap_eq ItemText.key_of_selectors]
  scaling := by rw [h.scaling, horder.last?_eq ItemText.key_of_scaling]

/-- An order that keeps the items of each key brings no contradiction. -/
theorem Compatible.of_keepsOrder {items items' : List ItemText}
    (h : Compatible (items.map (·.options))) (horder : ItemText.KeepsOrder items items') :
    Compatible (items'.map (·.options)) where
  scaling := by
    rw [horder.filterMap_eq ItemText.key_of_scaling]
    exact h.scaling
  kinds := by
    have hkinds := h.kinds
    rwa [allSelectors, ← horder.flatMap_eq ItemText.key_of_selectors] at hkinds

/-- A list of compatible items is read, and what is read is what they give. -/
theorem Compatible.exists_read {items : List ItemText} (h : Compatible (items.map (·.options))) :
    ∃ o, read (ItemText.joined items) = .ok o ∧ Gathers o (items.map (·.options)) := by
  have hparts : Compatible ([] ++ items.map (·.options)) := h
  obtain ⟨o, hread, hgathers⟩ := gathers_nil.exists_readItems hparts
  exact ⟨o, (ItemText.read_joined items).trans hread, hgathers⟩

/-- **Attachment items act independently of each other.**  A list of items with at most one resolution
and with selectors of one kind is read as what its items give: of each cap the last one, the selectors
in their order, the resolution.  Items of different keys may change places.  A title is taken from its
item character by character, and every text without a quote can be a title. -/
theorem items_act_independently {items : List ItemText}
    (h : Compatible (items.map (·.options))) :
    (∃ o, read (ItemText.joined items) = .ok o ∧ Gathers o (items.map (·.options))) ∧
    (∀ items', ItemText.KeepsOrder items items' →
      read (ItemText.joined items') = read (ItemText.joined items)) ∧
    (∀ t ∈ items, ∀ title, .title title ∈ t.options.selection.selectors →
      ∃ front back, '"' ∉ front ∧ '"' ∉ back ∧
        t.text = front ++ '"' :: (title.toList ++ '"' :: back)) ∧
    ∀ i : AttachmentItem, i.IsWritable → ∃ t : ItemText, t.text = i.text ∧ t.options = i.options := by
  refine ⟨h.exists_read, fun items' horder => ?_, fun t _ title htitle => ?_, fun i hi => ?_⟩
  · obtain ⟨o, hread, hgathers⟩ := h.exists_read
    obtain ⟨o', hread', hgathers'⟩ := (h.of_keepsOrder horder).exists_read
    rw [hread, hread', (hgathers.of_keepsOrder horder).unique hgathers']
  · exact t.exists_of_title htitle
  · exact AttachmentItem.exists_itemText hi

/-- A byte cap with blanks around its parts. -/
def smallCap : ItemText where
  text := " bytes : 5 ".toList
  options := (AttachmentItem.bytes 5).options
  read := Filter.eq_ok_of_toOption (by decide +kernel)
  onePiece := by decide
  quotable := by decide

/-- A byte cap. -/
def largeCap : ItemText where
  text := "bytes:70".toList
  options := (AttachmentItem.bytes 70).options
  read := Filter.eq_ok_of_toOption (by decide +kernel)
  onePiece := by decide
  quotable := by decide

/-- A title with all separators in it. -/
def separatorsTitle : ItemText where
  text := "select:\" a, b: %c \"".toList
  options := (AttachmentItem.select (.title " a, b: %c ")).options
  read := Filter.eq_ok_of_toOption (by decide +kernel)
  onePiece := by decide
  quotable := by decide

/-- A title between two byte caps may stand in front of them. -/
theorem title_moved_before_caps :
    Compatible ([smallCap, separatorsTitle, largeCap].map (·.options)) ∧
    ItemText.KeepsOrder [smallCap, separatorsTitle, largeCap]
      [separatorsTitle, smallCap, largeCap] ∧
    read (ItemText.joined [separatorsTitle, smallCap, largeCap]) =
      read (ItemText.joined [smallCap, separatorsTitle, largeCap]) := by
  have hparts : Compatible ([smallCap, separatorsTitle, largeCap].map (·.options)) :=
    ⟨by decide, by decide⟩
  have horder : ItemText.KeepsOrder [smallCap, separatorsTitle, largeCap]
      [separatorsTitle, smallCap, largeCap] :=
    ItemText.keepsOrder_swap (by decide) [] [largeCap]
  exact ⟨hparts, horder, (items_act_independently hparts).2.1 _ horder⟩

end AttachmentOptions

end ListingQuery
