import ListingQuery.Proofs.Filter.Grammar
import ListingQuery.Proofs.Filter.Tree

/-!
# Filters spelled with all their parentheses

A filter that is spelled with parentheses around every conjunction and disjunction is read back as
itself, whatever its conditions are and however its parts are nested.

* `Spells` are the token lists of a filter in this form;
* `Spells.derives` says that they are phrases of the grammar, and `Spells.ofTokens` reads them back,
  provided that the nesting allows for the height of the filter;
* `Spells.firstBreach?` says what they add to the counts of the limits, and that they break none.
-/

namespace ListingQuery.Filter

/-- The tokens of a filter with parentheses around every conjunction and disjunction. -/
inductive Spells : Filter → List Token → Prop
  | test {text : List Char} {words : Nat} {c : Comparison}
      (hread : Comparison.read text words = .ok c) : Spells (.test c) [.fragment text words]
  | not {f : Filter} {ts : List Token} (hf : Spells f ts) : Spells (.not f) (.not :: ts)
  | joined (k : Connective) {first : Filter} {ts : List Token} (hfirst : Spells first ts)
      {others : List (Filter × List Token)} (hne : others ≠ [])
      (hothers : ∀ o ∈ others, Spells o.1 o.2) :
      Spells (k.node (first :: others.map Prod.fst))
        (.openParen :: (ts ++ others.flatMap (fun o => k.token :: o.2) ++ [.closeParen]))

/-! ## Reading them back -/

/-- **A spelled filter is a phrase that means it**, provided that the nesting allows for its
height. -/
theorem Spells.derives {f : Filter} {ts : List Token} (h : Spells f ts) {levels : Nat}
    (hheight : f.height ≤ levels) : Derives levels .negation ts f := by
  induction h generalizing levels with
  | test hread => exact .primary (.condition hread)
  | not _ ih =>
      cases levels with
      | zero => simp [height] at hheight
      | succ n => exact .negation (ih (Nat.le_of_succ_le_succ hheight))
  | @joined k first ts _ others hne _ ihfirst ihothers =>
      have hmembers : (k.node (first :: others.map Prod.fst)).height =
          heightOfAll (first :: others.map Prod.fst) + 1 := by
        cases k <;> rfl
      cases levels with
      | zero => omega
      | succ n =>
          have hall := heightOfAll_le_iff.mp (Nat.le_of_succ_le_succ (hmembers ▸ hheight))
          have hfirst := ihfirst (hall first List.mem_cons_self)
          have hothers : ∀ o ∈ others, Derives n .negation o.2 o.1 := fun o ho =>
            ihothers o ho (hall o.1 (List.mem_cons_of_mem _ (List.mem_map_of_mem ho)))
          have hgather : k.gather first (others.map Prod.fst) =
              k.node (first :: others.map Prod.fst) := by
            obtain ⟨o, others, rfl⟩ := List.exists_cons_of_ne_nil hne
            rfl
          have hinner := Derives.joined k hfirst hothers
          rw [hgather] at hinner
          exact .primary (.group hinner)

/-- The tokens of a filter are read as the filter, if it is not too high. -/
theorem Spells.ofTokens {f : Filter} {ts : List Token} (h : Spells f ts) {limit : Nat}
    (hheight : f.height ≤ limit) : ofTokens limit ts = .ok f :=
  ofTokens_iff_derives.mpr (h.derives hheight).conjunction_of_one.disjunction_of_one

/-! ## Counting them -/

/-- What the counts are behind a filter: nothing is open that was not open before, no negation is
pending, and the leaves of the filter have been counted. -/
structure Counts.Behind (n : Counts) (limits : Limits) (leaves : Nat) (m : Counts) : Prop where
  depth : m.depth = n.depth
  deepest : m.deepest ≤ limits.filterDepth.toNat
  negations : m.negations = 0
  leaves : m.leaves = n.leaves + leaves

/-- Tokens that break no limit and leave these counts. -/
def Passes (limits : Limits) (n : Counts) (ts : List Token) (m : Counts) : Prop :=
  ∀ rest, firstBreach? limits m rest = none → firstBreach? limits n (ts ++ rest) = none

/-- Tokens pass one after the other. -/
theorem Passes.append {limits : Limits} {n m l : Counts} {ts us : List Token}
    (hts : Passes limits n ts m) (hus : Passes limits m us l) : Passes limits n (ts ++ us) l := by
  intro rest hrest
  rw [List.append_assoc]
  exact hts _ (hus rest hrest)

/-- A token passes if its counts are within the limits. -/
theorem passes_singleton {limits : Limits} {n : Counts} {t : Token}
    (hdeepest : (n.add t).deepest ≤ limits.filterDepth.toNat)
    (hnegations : (n.add t).negations ≤ limits.negationRun.toNat)
    (hleaves : (n.add t).leaves ≤ limits.filterLeaves.toNat) : Passes limits n [t] (n.add t) := by
  intro rest hrest
  exact firstBreach?_cons_eq_none_iff.mpr
    ⟨Counts.breach?_eq_none_iff.mpr ⟨hdeepest, hnegations, hleaves⟩, hrest⟩

section Counting

variable {limits : Limits}

/-- The room that a filter needs is there: for its nesting, for the negations that it begins with,
for its runs of negations and for its leaves. -/
structure Counts.Room (n : Counts) (limits : Limits) (f : Filter) : Prop where
  deepest : n.deepest ≤ limits.filterDepth.toNat
  height : n.depth + f.height ≤ limits.filterDepth.toNat
  leading : n.negations + f.leadingNegations ≤ limits.negationRun.toNat
  run : f.negationRun ≤ limits.negationRun.toNat
  leaves : n.leaves + f.leaves.length ≤ limits.filterLeaves.toNat

/-- Operands that pass one by one pass with the connective between them. -/
theorem passes_others (k : Connective) {others : List (Filter × List Token)}
    (hothers : ∀ o ∈ others, ∀ n : Counts, n.Room limits o.1 →
      ∃ m, n.Behind limits o.1.leaves.length m ∧ Passes limits n o.2 m)
    {n : Counts} (hnegations : n.negations = 0)
    (hdeepest : n.deepest ≤ limits.filterDepth.toNat)
    (hheight : n.depth + heightOfAll (others.map Prod.fst) ≤ limits.filterDepth.toNat)
    (hrun : negationRunOfAll (others.map Prod.fst) ≤ limits.negationRun.toNat)
    (hleaves : n.leaves + (leavesOfAll (others.map Prod.fst)).length ≤
      limits.filterLeaves.toNat) :
    ∃ m, n.Behind limits (leavesOfAll (others.map Prod.fst)).length m ∧
      Passes limits n (others.flatMap fun o => k.token :: o.2) m := by
  induction others generalizing n with
  | nil => exact ⟨n, ⟨rfl, hdeepest, hnegations, rfl⟩, fun _ hrest => hrest⟩
  | cons o others ih =>
      simp only [List.map_cons, heightOfAll, negationRunOfAll, leavesOfAll,
        List.length_append] at hheight hrun hleaves ⊢
      have hadd : n.add k.token = n := by
        cases k <;> simp [Counts.add, Connective.token, ← hnegations]
      have hconnective : Passes limits n [k.token] n := by
        have hpass : Passes limits n [k.token] (n.add k.token) :=
          passes_singleton (by rw [hadd]; exact hdeepest) (by rw [hadd]; omega)
            (by rw [hadd]; omega)
        rwa [hadd] at hpass
      have hlead := leadingNegations_le_negationRun o.1
      obtain ⟨m, hm, hpass⟩ := hothers o List.mem_cons_self n
        ⟨hdeepest, by omega, by omega, by omega, by omega⟩
      obtain ⟨l, hl, hpasses⟩ := ih (fun p hp => hothers p (List.mem_cons_of_mem _ hp))
        hm.negations hm.deepest (by rw [hm.depth]; omega) (by omega)
        (by rw [hm.leaves]; omega)
      refine ⟨l, ⟨hl.depth.trans hm.depth, hl.deepest, hl.negations, ?_⟩, ?_⟩
      · rw [hl.leaves, hm.leaves]
        omega
      · exact (hconnective.append hpass).append hpasses

/-- **A spelled filter breaks no limit** that leaves room for it. -/
theorem Spells.passes {f : Filter} {ts : List Token} (h : Spells f ts) {n : Counts}
    (hroom : n.Room limits f) :
    ∃ m, n.Behind limits f.leaves.length m ∧ Passes limits n ts m := by
  induction h generalizing n with
  | @test text words c _ =>
      obtain ⟨hdeepest, hheight, hlead, hrun, hleaves⟩ := hroom
      exact ⟨n.add (.fragment text words), ⟨rfl, hdeepest, rfl, rfl⟩,
        passes_singleton hdeepest (Nat.zero_le _) hleaves⟩
  | @not f ts hf ih =>
      obtain ⟨hdeepest, hheight, hlead, hrun, hleaves⟩ := hroom
      simp only [height, leadingNegations, negationRun, leaves] at hheight hlead hrun hleaves
      have hpass : Passes limits n [.not] (n.add .not) :=
        passes_singleton hdeepest (by simp only [Counts.add]; omega)
          (by simp only [Counts.add]; omega)
      obtain ⟨m, hm, hpasses⟩ := ih (n := n.add .not)
        ⟨hdeepest, by simp only [Counts.add]; omega, by simp only [Counts.add]; omega,
          by omega, hleaves⟩
      exact ⟨m, ⟨hm.depth, hm.deepest, hm.negations, hm.leaves⟩, hpass.append hpasses⟩
  | @joined k first ts hfirst others hne hothers ihfirst ihothers =>
      obtain ⟨hdeepest, hheight, hlead, hrun, hleaves⟩ := hroom
      have hmeasures : ∀ fs, (k.node fs).height = heightOfAll fs + 1 ∧
          (k.node fs).negationRun = negationRunOfAll fs ∧
          (k.node fs).leaves = leavesOfAll fs := by
        intro fs
        cases k <;> exact ⟨rfl, rfl, rfl⟩
      obtain ⟨hh, hr, hl⟩ := hmeasures (first :: others.map Prod.fst)
      rw [hh, heightOfAll] at hheight
      rw [hr, negationRunOfAll] at hrun
      rw [hl, leavesOfAll, List.length_append] at hleaves
      rw [hl, leavesOfAll, List.length_append]
      have hopen : Passes limits n [.openParen] (n.add .openParen) :=
        passes_singleton (by simp only [Counts.add]; omega) (Nat.zero_le _)
          (by simp only [Counts.add]; omega)
      have hfirstLead := leadingNegations_le_negationRun first
      obtain ⟨m, hm, hpassFirst⟩ := ihfirst (n := n.add .openParen)
        ⟨by simp only [Counts.add]; omega, by simp only [Counts.add]; omega,
          by simp only [Counts.add]; omega, by omega, by simp only [Counts.add]; omega⟩
      obtain ⟨hmdepth, hmdeepest, hmnegations, hmleaves⟩ := hm
      simp only [Counts.add] at hmdepth hmleaves
      obtain ⟨l, ⟨hldepth, hldeepest, hlnegations, hlleaves⟩, hpassOthers⟩ :=
        passes_others k (fun o ho n => ihothers o ho (n := n)) hmnegations hmdeepest
          (by rw [hmdepth]; omega) (by omega) (by rw [hmleaves]; omega)
      have hclose : Passes limits l [.closeParen] (l.add .closeParen) :=
        passes_singleton hldeepest (Nat.zero_le _) (by simp only [Counts.add]; omega)
      refine ⟨l.add .closeParen, ⟨?_, hldeepest, rfl, ?_⟩, ?_⟩
      · simp only [Counts.add]
        omega
      · simp only [Counts.add]
        omega
      · exact hopen.append ((hpassFirst.append hpassOthers).append hclose)

end Counting

end ListingQuery.Filter
