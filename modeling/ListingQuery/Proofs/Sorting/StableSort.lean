import Mathlib.Data.List.Sort
import ListingQuery.SortOrder

/-!
# Stable sorts

A comparison orders items up to ties if it behaves as a total preorder on them, whatever it says of
others.  Then there is one way to put the items in order such that ties stay as they were given: a
stable sort is known, and merge sort finds it.

A stable sort of a library promises no more than that.  Where the comparison does not order the items,
what comes out is not specified, and the sort need not come back at all.

* `OrdersUpToTies` are the laws of the comparison, for the members of a class;
* `StablySorted` is what a stable sort gives, and `StablySorted.unique` that there is one;
* `StablySorted.append` and `StablySorted.filter` are two sorts in a row, and a sieve over a sort;
* `stablySorted_mergeSort` and `stablySorted_insertionSort` are two sorts that give it;
* `Sorter.IsStable` is the promise, and `Sorter.IsStable.sort_eq` what it comes to.
-/

namespace ListingQuery

/-- A comparison orders the members of a class up to ties. -/
structure OrdersUpToTies {α : Type} (order : α → α → Ordering) (member : α → Prop) : Prop where
  refl : ∀ a, member a → order a a = .eq
  swap : ∀ a b, member a → member b → order a b = (order b a).swap
  trans : ∀ a b c, member a → member b → member c → (order a b).isLE → (order b c).isLE →
    (order a c).isLE
  ties : ∀ a b c, member a → member b → member c → order a b = .eq → order a c = order b c

/-- A verdict that is the same from the other side is a tie. -/
theorem eq_of_eq_swap {o : Ordering} (h : o = o.swap) : o = .eq := by
  cases o <;> simp at h
  rfl

namespace OrdersUpToTies

variable {α β : Type} {order : α → α → Ordering} {member : α → Prop}

/-- Two of the laws give the others. -/
theorem of_swap_of_trans
    (hswap : ∀ a b, member a → member b → order a b = (order b a).swap)
    (htrans : ∀ a b c, member a → member b → member c → (order a b).isLE → (order b c).isLE →
      (order a c).isLE) : OrdersUpToTies order member := by
  refine ⟨?_, hswap, htrans, ?_⟩
  · intro a ha
    exact eq_of_eq_swap (hswap a a ha ha)
  · intro a b c ha hb hc hab
    have hba : order b a = .eq := by rw [hswap b a hb ha, hab]; rfl
    have hbelow : (order a c).isLE ↔ (order b c).isLE :=
      ⟨htrans b a c hb ha hc (by rw [hba]; rfl), htrans a b c ha hb hc (by rw [hab]; rfl)⟩
    have habove : (order c a).isLE ↔ (order c b).isLE :=
      ⟨fun h => htrans c a b hc ha hb h (by rw [hab]; rfl),
        fun h => htrans c b a hc hb ha h (by rw [hba]; rfl)⟩
    rw [hswap c a hc ha, hswap c b hc hb] at habove
    cases hac : order a c <;> cases hbc : order b c <;> simp [hac, hbc] at hbelow habove <;> rfl

/-- What stands before one of two members that are in order stands before the other. -/
theorem lt_of_lt_of_isLE (h : OrdersUpToTies order member) {a b c : α} (ha : member a)
    (hb : member b) (hc : member c) (hab : order a b = .lt) (hbc : (order b c).isLE) :
    order a c = .lt := by
  have hle := h.trans a b c ha hb hc (by rw [hab]; rfl) hbc
  cases hac : order a c with
  | lt => rfl
  | gt => simp [hac] at hle
  | eq =>
      have htie := h.ties a c b ha hc hb hac
      rw [hab, h.swap c b hc hb] at htie
      cases hcompare : order b c <;> simp [hcompare] at htie hbc

/-- The order from the other end. -/
theorem reversed (h : OrdersUpToTies order member) :
    OrdersUpToTies (fun a b => (order a b).swap) member := by
  apply of_swap_of_trans
  · intro a b ha hb
    rw [h.swap a b ha hb]
  · intro a b c ha hb hc hab hbc
    rw [← h.swap b a hb ha] at hab
    rw [← h.swap c b hc hb] at hbc
    rw [← h.swap c a hc ha]
    exact h.trans c b a hc hb ha hbc hab

/-- What is compared by something of it is ordered if that is. -/
theorem comap (h : OrdersUpToTies order member) {member' : β → Prop} {order' : β → β → Ordering}
    {f : β → α} (hmember : ∀ b, member' b → member (f b))
    (horder : ∀ b c, member' b → member' c → order' b c = order (f b) (f c)) :
    OrdersUpToTies order' member' := by
  apply of_swap_of_trans
  · intro a b ha hb
    rw [horder a b ha hb, horder b a hb ha, h.swap _ _ (hmember a ha) (hmember b hb)]
  · intro a b c ha hb hc
    rw [horder a b ha hb, horder b c hb hc, horder a c ha hc]
    exact h.trans _ _ _ (hmember a ha) (hmember b hb) (hmember c hc)

/-- Two orders, the second among the ties of the first. -/
theorem lex {order' : β → β → Ordering} {member' : β → Prop} (h : OrdersUpToTies order member)
    (h' : OrdersUpToTies order' member') :
    OrdersUpToTies (fun a b : α × β => (order a.1 b.1).then (order' a.2 b.2))
      (fun a => member a.1 ∧ member' a.2) := by
  apply of_swap_of_trans
  · rintro a b ⟨ha, ha'⟩ ⟨hb, hb'⟩
    rw [h.swap _ _ ha hb, h'.swap _ _ ha' hb', Ordering.swap_then]
  · rintro a b c ⟨ha, ha'⟩ ⟨hb, hb'⟩ ⟨hc, hc'⟩ hab hbc
    rw [Ordering.isLE_then_iff_or] at hab hbc ⊢
    rcases hab with hab | ⟨hab, hab'⟩
    · have hbcLE : (order b.1 c.1).isLE := by
        rcases hbc with hbc | ⟨hbc, -⟩ <;> rw [hbc] <;> rfl
      exact Or.inl (h.lt_of_lt_of_isLE ha hb hc hab hbcLE)
    · have hac := h.ties _ _ _ ha hb hc hab
      rcases hbc with hbc | ⟨hbc, hbc'⟩
      · exact Or.inl (hac.trans hbc)
      · exact Or.inr ⟨hac.trans hbc, h'.trans _ _ _ ha' hb' hc' hab' hbc'⟩

/-- What orders a class orders every smaller one. -/
theorem mono (h : OrdersUpToTies order member) {member' : α → Prop}
    (hmember : ∀ a, member' a → member a) : OrdersUpToTies order member' :=
  h.comap hmember fun _ _ _ _ => rfl

end OrdersUpToTies

/-! ## What a stable sort gives -/

section Stable

variable {α : Type} {order order' : α → α → Ordering} {member : α → Prop} {a : α}
  {items once sorted other : List α}

/-- The items that tie with one. -/
def tiedWith (order : α → α → Ordering) (a : α) (items : List α) : List α :=
  items.filter fun b => (order a b).isEq

/-- The items in order, where those that tie with each other stand as they were given. -/
structure StablySorted (order : α → α → Ordering) (items sorted : List α) : Prop where
  perm : sorted.Perm items
  ordered : sorted.Pairwise fun a b => (order a b).isLE = true
  stable : ∀ tied : List α, tied.Sublist items → tied.Pairwise (fun a b => order a b = .eq) →
    tied.Sublist sorted

/-- What ties with an item is among the items. -/
theorem mem_tiedWith {b : α} : b ∈ tiedWith order a items ↔ b ∈ items ∧ order a b = .eq := by
  simp [tiedWith]

/-- Items that tie with one member tie with each other. -/
theorem OrdersUpToTies.pairwise_tiedWith (h : OrdersUpToTies order (· ∈ items)) (ha : a ∈ items) :
    (tiedWith order a items).Pairwise fun b c => order b c = .eq := by
  apply List.pairwise_of_forall_mem_list
  intro b hb c hc
  obtain ⟨hb, hab⟩ := mem_tiedWith.mp hb
  obtain ⟨hc, hac⟩ := mem_tiedWith.mp hc
  rw [← h.ties a b c ha hb hc hab]
  exact hac

/-- **A stable sort keeps the items that tie with one as they were given.** -/
theorem StablySorted.tiedWith_eq (hs : StablySorted order items sorted)
    (h : OrdersUpToTies order (· ∈ items)) (ha : a ∈ items) :
    tiedWith order a sorted = tiedWith order a items := by
  have hkept : (tiedWith order a items).Sublist (tiedWith order a sorted) := by
    have htwice := (hs.stable _ List.filter_sublist (h.pairwise_tiedWith ha)).filter
      fun b => (order a b).isEq
    simpa [tiedWith, List.filter_filter] using htwice
  exact (hkept.eq_of_length (hs.perm.filter _).length_eq.symm).symm

/-- An item of a list in order comes no earlier than the first. -/
theorem OrdersUpToTies.isLE_of_mem_cons (h : OrdersUpToTies order member) (ha : member a)
    (hordered : (a :: items).Pairwise fun a b => (order a b).isLE = true) {b : α}
    (hb : b ∈ a :: items) : (order a b).isLE = true := by
  cases hb with
  | head =>
      rw [h.refl a ha]
      rfl
  | tail _ hb => exact (List.pairwise_cons.mp hordered).1 b hb

/-- Lists that agree on the items that tie with one agree on whether it is there. -/
theorem mem_iff_of_tiedWith (hself : order a a = .eq)
    (htied : tiedWith order a sorted = tiedWith order a other) : a ∈ sorted ↔ a ∈ other := by
  have hiff := congrArg (a ∈ ·) htied
  simpa only [mem_tiedWith, hself, and_true, eq_iff_iff] using hiff

/-- Two lists of members in order are one list if they agree on the items that tie with each member. -/
theorem OrdersUpToTies.eq_of_tiedWith (h : OrdersUpToTies order member)
    (hsorted : sorted.Pairwise fun a b => (order a b).isLE = true)
    (hother : other.Pairwise fun a b => (order a b).isLE = true)
    (hsortedMembers : ∀ a ∈ sorted, member a) (hotherMembers : ∀ a ∈ other, member a)
    (htied : ∀ a, member a → tiedWith order a sorted = tiedWith order a other) :
    sorted = other := by
  induction sorted generalizing other with
  | nil =>
      symm
      apply List.eq_nil_iff_forall_not_mem.mpr
      intro b hb
      have hmember := hotherMembers b hb
      exact List.not_mem_nil ((mem_iff_of_tiedWith (h.refl b hmember) (htied b hmember)).mpr hb)
  | cons a sorted ih =>
      have ha := hsortedMembers a List.mem_cons_self
      have hmem := mem_iff_of_tiedWith (h.refl a ha) (htied a ha)
      cases other with
      | nil => exact absurd (hmem.mp List.mem_cons_self) List.not_mem_nil
      | cons b other =>
          have hb := hotherMembers b List.mem_cons_self
          have hmem' := mem_iff_of_tiedWith (h.refl b hb) (htied b hb)
          have hab := h.isLE_of_mem_cons ha hsorted (hmem'.mpr List.mem_cons_self)
          have hba := h.isLE_of_mem_cons hb hother (hmem.mp List.mem_cons_self)
          have heq : order a b = .eq := by
            rw [h.swap b a hb ha] at hba
            cases hcompare : order a b <;> simp [hcompare] at hab hba ⊢
          -- the two heads tie, so each is the first of the items that tie with it
          have hhead : a = b := by
            have hties := htied a ha
            simp only [tiedWith, List.filter_cons, heq, h.refl a ha] at hties
            exact (List.cons.inj hties).1
          subst hhead
          have hrest : ∀ c, member c → tiedWith order c sorted = tiedWith order c other := by
            intro c hc
            have hties := htied c hc
            simp only [tiedWith, List.filter_cons] at hties ⊢
            by_cases hca : (order c a).isEq = true
            · simpa [hca] using hties
            · simpa [hca] using hties
          rw [ih (List.pairwise_cons.mp hsorted).2 (List.pairwise_cons.mp hother).2
            (fun c hc => hsortedMembers c (List.mem_cons_of_mem _ hc))
            (fun c hc => hotherMembers c (List.mem_cons_of_mem _ hc)) hrest]

namespace StablySorted

/-- **There is one stable sort** of items that a comparison orders up to ties. -/
theorem unique (h : OrdersUpToTies order (· ∈ items)) (hs : StablySorted order items sorted)
    (hother : StablySorted order items other) : sorted = other := by
  refine h.eq_of_tiedWith hs.ordered hother.ordered (fun a => hs.perm.mem_iff.mp)
    (fun a => hother.perm.mem_iff.mp) ?_
  intro a ha
  rw [hs.tiedWith_eq h ha, hother.tiedWith_eq h ha]

/-- **Two stable sorts are one** by the second comparison, and by the first where that ties. -/
theorem append (h : OrdersUpToTies order (· ∈ items)) (honce : StablySorted order' items once)
    (hs : StablySorted order once sorted) :
    StablySorted (fun a b => (order a b).then (order' a b)) items sorted := by
  have honceOrdered : OrdersUpToTies order (· ∈ once) := h.mono fun a => honce.perm.mem_iff.mp
  refine ⟨hs.perm.trans honce.perm, ?_, ?_⟩
  · rw [List.pairwise_iff_forall_sublist]
    intro a b hab
    have hle := List.pairwise_iff_forall_sublist.mp hs.ordered hab
    have ha : a ∈ once := hs.perm.mem_iff.mp (hab.subset (by simp))
    cases hcompare : order a b with
    | lt => rfl
    | gt => simp [hcompare] at hle
    | eq =>
        -- a tie of the second sort stands as the first one left it
        have htie := hab.filter fun c => (order a c).isEq
        have hsub : [a, b].Sublist (tiedWith order a sorted) := by
          simpa [tiedWith, honceOrdered.refl a ha, hcompare] using htie
        rw [hs.tiedWith_eq honceOrdered ha] at hsub
        exact List.pairwise_iff_forall_sublist.mp honce.ordered (hsub.trans List.filter_sublist)
  · intro tied hsub hties
    have hboth : ∀ a b, (order a b).then (order' a b) = .eq → order a b = .eq ∧ order' a b = .eq :=
      fun a b => Ordering.then_eq_eq.mp
    have hkept := honce.stable tied hsub (hties.imp fun htie => (hboth _ _ htie).2)
    exact hs.stable tied hkept (hties.imp fun htie => (hboth _ _ htie).1)

/-- **A sieve keeps a stable sort.** -/
theorem filter (hs : StablySorted order items sorted) (p : α → Bool) :
    StablySorted order (items.filter p) (sorted.filter p) := by
  refine ⟨hs.perm.filter p, hs.ordered.filter p, ?_⟩
  intro tied hsub hties
  have hkept := (hs.stable tied (hsub.trans List.filter_sublist) hties).filter p
  have hpasses : tied.filter p = tied :=
    List.filter_eq_self.mpr fun a ha => (List.mem_filter.mp (hsub.subset ha)).2
  rwa [hpasses] at hkept

end StablySorted

/-! ## Merge sort -/

/-- **Merge sort is stable.**  The library says so of comparisons that order everything; here they
order the items, so that the sort is made of the items as members of their list. -/
theorem stablySorted_mergeSort (h : OrdersUpToTies order (· ∈ items)) :
    StablySorted order items (items.mergeSort fun a b => (order a b).isLE) := by
  let le : { a // a ∈ items } → { a // a ∈ items } → Bool := fun a b => (order a.1 b.1).isLE
  have htrans : ∀ a b c, le a b = true → le b c = true → le a c = true :=
    fun a b c => h.trans a.1 b.1 c.1 a.2 b.2 c.2
  have htotal : ∀ a b, (le a b || le b a) = true := by
    intro a b
    change ((order a.1 b.1).isLE || (order b.1 a.1).isLE) = true
    rw [h.swap b.1 a.1 b.2 a.2]
    cases order a.1 b.1 <;> rfl
  have hmembers : items.mergeSort (fun a b => (order a b).isLE) =
      (items.attach.mergeSort le).map Subtype.val := by
    have hmap := List.map_mergeSort (l := items.attach) (f := Subtype.val) (r := le)
      (s := fun a b => (order a b).isLE) fun _ _ _ _ => rfl
    rw [hmap, List.attach_map_subtype_val]
  refine ⟨List.mergeSort_perm _ _, ?_, ?_⟩
  · rw [hmembers]
    exact (List.pairwise_mergeSort htrans htotal items.attach).map _ fun _ _ hle => hle
  · intro tied hsub hties
    rw [← List.attach_map_subtype_val items, List.sublist_map_iff] at hsub
    obtain ⟨ties, hsub, rfl⟩ := hsub
    have hordered : ties.Pairwise fun a b => le a b = true := by
      refine List.Pairwise.of_map Subtype.val ?_ hties
      intro a b htie
      change (order a.1 b.1).isLE = true
      rw [htie]
      rfl
    rw [hmembers]
    exact (List.sublist_mergeSort htrans htotal hordered hsub).map _

/-! ## Insertion sort -/

/-- A member is put in its place among others in order. -/
theorem OrdersUpToTies.pairwise_orderedInsert (h : OrdersUpToTies order member) (ha : member a)
    (hmembers : ∀ b ∈ sorted, member b)
    (hsorted : sorted.Pairwise fun a b => (order a b).isLE = true) :
    (sorted.orderedInsert (fun a b => (order a b).isLE = true) a).Pairwise
      fun a b => (order a b).isLE = true := by
  induction sorted with
  | nil => exact List.pairwise_singleton _ a
  | cons b sorted ih =>
      obtain ⟨hb, hmembers⟩ := List.forall_mem_cons.mp hmembers
      obtain ⟨hfirst, hrest⟩ := List.pairwise_cons.mp hsorted
      rw [List.orderedInsert_cons]
      split
      case isTrue hab =>
        refine List.pairwise_cons.mpr ⟨?_, hsorted⟩
        intro c hc
        rcases List.mem_cons.mp hc with rfl | hc
        · exact hab
        · exact h.trans a b c ha hb (hmembers c hc) hab (hfirst c hc)
      case isFalse hab =>
        have hba : (order b a).isLE = true := by
          rw [h.swap b a hb ha]
          cases hcompare : order a b <;> simp [hcompare] at hab ⊢
        refine List.pairwise_cons.mpr ⟨?_, ih hmembers hrest⟩
        intro c hc
        rcases (List.mem_orderedInsert _).mp hc with rfl | hc
        · exact hba
        · exact hfirst c hc

/-- **Insertion sort is stable.**  An item is put before those that it ties with, and it was given
before them. -/
theorem stablySorted_insertionSort (h : OrdersUpToTies order (· ∈ items)) :
    StablySorted order items (items.insertionSort fun a b => (order a b).isLE) := by
  refine ⟨List.perm_insertionSort _ _, ?_, ?_⟩
  · induction items with
    | nil => exact .nil
    | cons a items ih =>
        have hrest := h.mono fun b (hb : b ∈ items) => List.mem_cons_of_mem a hb
        refine h.pairwise_orderedInsert List.mem_cons_self ?_ (ih hrest)
        intro b hb
        exact List.mem_cons_of_mem a ((List.mem_insertionSort _).mp hb)
  · intro tied hsub hties
    clear h
    induction hsub with
    | slnil => exact .slnil
    | cons a _ ih => exact (ih hties).trans (List.sublist_orderedInsert a _)
    | cons_cons a _ ih =>
        obtain ⟨hfirst, hrest⟩ := List.pairwise_cons.mp hties
        refine List.cons_sublist_orderedInsert (ih hrest) fun b hb => ?_
        rw [hfirst b hb]
        rfl

end Stable

/-! ## What a stable sort promises -/

namespace Sorter

/-- **The promise of a stable sort.**  A sort compares nothing but its items.  Where the comparison
orders these up to ties, it comes back with them, stably sorted; otherwise nothing is promised. -/
structure IsStable (sorter : Sorter Option) : Prop where
  sorts : ∀ {α : Type} (order : α → α → Ordering) (items : List α),
    OrdersUpToTies order (· ∈ items) →
      ∃ sorted, sorter.sort order items = some sorted ∧ StablySorted order items sorted

/-- **All stable sorts do the same** where the comparison orders the items: they merge sort them. -/
theorem IsStable.sort_eq {sorter : Sorter Option} (hsorter : sorter.IsStable) {α : Type}
    {order : α → α → Ordering} {items : List α} (h : OrdersUpToTies order (· ∈ items)) :
    sorter.sort order items = some (items.mergeSort fun a b => (order a b).isLE) := by
  obtain ⟨sorted, hsorted, hstable⟩ := hsorter.sorts order items h
  rw [hsorted, hstable.unique h (stablySorted_mergeSort h)]

/-- Insertion sort, as a sort that might not come back. -/
def insertion : Sorter Option :=
  ⟨fun order items => some (items.insertionSort fun a b => (order a b).isLE)⟩

/-- **Insertion sort keeps the promise.** -/
theorem isStable_insertion : insertion.IsStable :=
  ⟨fun _ _ h => ⟨_, rfl, stablySorted_insertionSort h⟩⟩

end Sorter

end ListingQuery
