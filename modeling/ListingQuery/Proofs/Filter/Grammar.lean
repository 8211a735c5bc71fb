import ListingQuery.Proofs.Filter.Reader

/-!
# The grammar of filters

    disjunction := conjunction (OR conjunction)*
    conjunction := negation (AND negation)*
    negation    := NOT negation | primary
    primary     := '(' disjunction ')' | condition

The reader of filters accepts the tokens of a disjunction in which every condition can be read and
nothing is nested too deep, and no others.

* `Derives` is the grammar with the filter that a phrase means.  It knows neither of positions nor of
  what stands behind a phrase;
* `derives_readOperand` and `derives_readDisjunction` say that what is read is derived: the tokens
  used up are a phrase, and the others stand behind it;
* `Derives.read` says that what is derived is read, provided that no connective stands behind it
  that would go on with it (`Rule.Stops`);
* `ofTokens_accepts_grammar` puts both together.  A phrase means one filter only, since the reader is
  a function.
-/

namespace ListingQuery.Filter

/-- The four kinds of phrases, the loosest first. -/
inductive Rule where
  | disjunction
  | conjunction
  | negation
  | primary
deriving DecidableEq, Repr

/-- `Derives levels rule ts f`: the tokens `ts` are a phrase of the kind `rule` that means the filter
`f`, and parentheses and negations together are nested at most `levels` deep in it.  Operands with a
connective between them mean the node of all of them, one operand means itself, and parentheses
mean what they enclose. -/
inductive Derives : Nat → Rule → List Token → Filter → Prop
  | condition {levels : Nat} {text : List Char} {words : Nat} {c : Comparison}
      (hread : Comparison.read text words = .ok c) :
      Derives levels .primary [.fragment text words] (.test c)
  | group {levels : Nat} {ts : List Token} {f : Filter} (hinner : Derives levels .disjunction ts f) :
      Derives (levels + 1) .primary (.openParen :: (ts ++ [.closeParen])) f
  | primary {levels : Nat} {ts : List Token} {f : Filter} (hf : Derives levels .primary ts f) :
      Derives levels .negation ts f
  | negation {levels : Nat} {ts : List Token} {f : Filter} (hf : Derives levels .negation ts f) :
      Derives (levels + 1) .negation (.not :: ts) (.not f)
  | conjunction {levels : Nat} {ts : List Token} {first : Filter}
      {others : List (Filter × List Token)} (hfirst : Derives levels .negation ts first)
      (hothers : ∀ o ∈ others, Derives levels .negation o.2 o.1) :
      Derives levels .conjunction (ts ++ others.flatMap fun o => .and :: o.2)
        (Connective.conjunction.gather first (others.map Prod.fst))
  | disjunction {levels : Nat} {ts : List Token} {first : Filter}
      {others : List (Filter × List Token)} (hfirst : Derives levels .conjunction ts first)
      (hothers : ∀ o ∈ others, Derives levels .conjunction o.2 o.1) :
      Derives levels .disjunction (ts ++ others.flatMap fun o => .or :: o.2)
        (Connective.disjunction.gather first (others.map Prod.fst))

/-- More levels do no harm. -/
theorem Derives.mono {m n : Nat} (hmn : m ≤ n) {rule : Rule} {ts : List Token} {f : Filter}
    (h : Derives m rule ts f) : Derives n rule ts f := by
  induction h generalizing n with
  | condition hread => exact .condition hread
  | group _ ih =>
      obtain ⟨n, rfl⟩ := Nat.exists_eq_add_of_lt hmn
      exact .group (ih (by omega))
  | primary _ ih => exact .primary (ih hmn)
  | negation _ ih =>
      obtain ⟨n, rfl⟩ := Nat.exists_eq_add_of_lt hmn
      exact .negation (ih (by omega))
  | conjunction _ _ ihfirst ihothers =>
      exact .conjunction (ihfirst hmn) fun o ho => ihothers o ho hmn
  | disjunction _ _ ihfirst ihothers =>
      exact .disjunction (ihfirst hmn) fun o ho => ihothers o ho hmn

/-- A negation is a conjunction of one. -/
theorem Derives.conjunction_of_one {levels : Nat} {ts : List Token} {f : Filter}
    (h : Derives levels .negation ts f) : Derives levels .conjunction ts f := by
  have hone := @Derives.conjunction levels ts f [] h (by simp)
  rwa [List.flatMap_nil, List.append_nil] at hone

/-- A conjunction is a disjunction of one. -/
theorem Derives.disjunction_of_one {levels : Nat} {ts : List Token} {f : Filter}
    (h : Derives levels .conjunction ts f) : Derives levels .disjunction ts f := by
  have hone := @Derives.disjunction levels ts f [] h (by simp)
  rwa [List.flatMap_nil, List.append_nil] at hone

/-- Operands with one connective between them are a disjunction, whichever it is. -/
theorem Derives.joined {levels : Nat} (k : Connective) {ts : List Token} {first : Filter}
    {others : List (Filter × List Token)} (hfirst : Derives levels .negation ts first)
    (hothers : ∀ o ∈ others, Derives levels .negation o.2 o.1) :
    Derives levels .disjunction (ts ++ others.flatMap fun o => k.token :: o.2)
      (k.gather first (others.map Prod.fst)) := by
  cases k with
  | conjunction => exact (Derives.conjunction hfirst hothers).disjunction_of_one
  | disjunction =>
      exact .disjunction hfirst.conjunction_of_one fun o ho => (hothers o ho).conjunction_of_one

/-! ## What is read is derived -/

/-- Whatever the reader takes from the beginning of its tokens is a phrase of the kind. -/
def TakesPhrases (levels : Nat) (rule : Rule) (operand : List Token → Reading Filter) : Prop :=
  ∀ ts f rest, operand ts = .ok (f, rest) → ∃ used, ts = used ++ rest ∧ Derives levels rule used f

section Loops

variable {levels : Nat} {rule : Rule} {operand : List Token → Reading Filter}

/-- Behind a first operand stand connectives, each with a phrase behind it. -/
theorem TakesPhrases.further (h : TakesPhrases levels rule operand) {k : Connective}
    {ts rest : List Token} {fs : List Filter} (hfurther : Further k operand ts fs rest) :
    ∃ others : List (Filter × List Token), fs = others.map Prod.fst ∧
      ts = (others.flatMap fun o => k.token :: o.2) ++ rest ∧
      ∀ o ∈ others, Derives levels rule o.2 o.1 := by
  induction hfurther with
  | stop _ => exact ⟨[], rfl, rfl, by simp⟩
  | @more ts mid rest f fs hread _ ih =>
      obtain ⟨used, rfl, hf⟩ := h _ _ _ hread
      obtain ⟨others, rfl, rfl, hothers⟩ := ih
      refine ⟨(f, used) :: others, rfl, by simp, ?_⟩
      intro o ho
      rcases List.mem_cons.mp ho with rfl | ho
      · exact hf
      · exact hothers o ho

/-- One operand or several with a connective between them. -/
theorem TakesPhrases.joined (h : TakesPhrases levels rule operand) (hshort : Shortens operand)
    {k : Connective} {ts rest : List Token} {f : Filter}
    (hread : readJoined k.token k.node operand ts = .ok (f, rest)) :
    ∃ (used : List Token) (first : Filter) (others : List (Filter × List Token)),
      ts = (used ++ others.flatMap fun o => k.token :: o.2) ++ rest ∧
      f = k.gather first (others.map Prod.fst) ∧ Derives levels rule used first ∧
      ∀ o ∈ others, Derives levels rule o.2 o.1 := by
  obtain ⟨first, mid, fs, hfirst, hfurther, rfl⟩ := (readJoined_iff hshort).mp hread
  obtain ⟨used, rfl, hused⟩ := h _ _ _ hfirst
  obtain ⟨others, rfl, rfl, hothers⟩ := h.further hfurther
  exact ⟨used, first, others, by simp, rfl, hused, hothers⟩

/-- A reader of operands makes one of conjunctions. -/
theorem TakesPhrases.readConjunction (h : TakesPhrases levels .negation operand)
    (hshort : Shortens operand) :
    TakesPhrases levels .conjunction (readJoined .and .and operand) := by
  intro ts f rest hread
  obtain ⟨used, first, others, hts, rfl, hfirst, hothers⟩ :=
    h.joined (k := .conjunction) hshort hread
  exact ⟨_, hts, .conjunction hfirst hothers⟩

/-- A reader of operands makes one of disjunctions. -/
theorem TakesPhrases.readDisjunction (h : TakesPhrases levels .negation operand)
    (hshort : Shortens operand) : TakesPhrases levels .disjunction (readDisjunction operand) := by
  intro ts f rest hread
  obtain ⟨used, first, others, hts, rfl, hfirst, hothers⟩ :=
    (h.readConjunction hshort).joined (k := .disjunction)
      (shortens_readJoined (k := .conjunction) hshort) hread
  exact ⟨_, hts, .disjunction hfirst hothers⟩

end Loops

/-- **What is read as an operand is a negation or a primary.** -/
theorem derives_readOperand (limit levels : Nat) :
    TakesPhrases levels .negation (readOperand limit levels) := by
  intro ts f rest hread
  refine readOperand_induction (motive := fun levels ts f rest =>
    ∃ used, ts = used ++ rest ∧ Derives levels .negation used f) ?_ ?_ ?_ hread
  · intro levels text words c rest hc
    exact ⟨[.fragment text words], rfl, .primary (.condition hc)⟩
  · intro levels ts f rest ih
    obtain ⟨used, rfl, hf⟩ := ih
    exact ⟨.not :: used, rfl, .negation hf⟩
  · intro levels ts f rest ih hinner
    obtain ⟨used, rfl, hf⟩ :=
      TakesPhrases.readDisjunction ih (shortens_readOperand limit levels) _ _ _ hinner
    exact ⟨.openParen :: (used ++ [.closeParen]), by simp, .primary (.group hf)⟩

/-- The reader takes the disjunctions of the grammar. -/
theorem derives_readDisjunction (limit levels : Nat) :
    TakesPhrases levels .disjunction (readDisjunction (readOperand limit levels)) :=
  (derives_readOperand limit levels).readDisjunction (shortens_readOperand limit levels)

/-! ## What is derived is read -/

/-- The reader of the phrases of a kind. -/
def Rule.reader (operand : List Token → Reading Filter) : Rule → List Token → Reading Filter
  | .disjunction => readDisjunction operand
  | .conjunction => readJoined .and .and operand
  | .negation => operand
  | .primary => operand

/-- No connective stands at the beginning of these tokens that would go on with a phrase of the
kind. -/
def Rule.Stops (rest : List Token) : Rule → Prop
  | .disjunction => ∀ k : Connective, rest.head? ≠ some k.token
  | .conjunction => rest.head? ≠ some Connective.conjunction.token
  | .negation => True
  | .primary => True

/-- Operands that are read as spelled, each in front of something that `Stops` it, are read one
after the other. -/
theorem further_of_reads {k : Connective} {operand : List Token → Reading Filter}
    (Stops : List Token → Prop) (hconnective : ∀ ts, Stops (k.token :: ts))
    {others : List (Filter × List Token)}
    (hothers : ∀ o ∈ others, ∀ rest, Stops rest → operand (o.2 ++ rest) = .ok (o.1, rest))
    {rest : List Token} (hrest : Stops rest) (hstop : rest.head? ≠ some k.token) :
    Stops (others.flatMap (fun o => k.token :: o.2) ++ rest) ∧
      Further k operand (others.flatMap (fun o => k.token :: o.2) ++ rest)
        (others.map Prod.fst) rest := by
  induction others with
  | nil => exact ⟨hrest, .stop hstop⟩
  | cons o others ih =>
      obtain ⟨hstops, hfurther⟩ := ih fun p hp => hothers p (List.mem_cons_of_mem _ hp)
      have hread := hothers o List.mem_cons_self _ hstops
      rw [List.flatMap_cons, List.cons_append, List.cons_append, List.append_assoc]
      exact ⟨hconnective _, .more hread hfurther⟩

/-- Operands that are read one by one are read with the connective between them. -/
theorem readJoined_of_reads {k : Connective} {operand : List Token → Reading Filter}
    (hshort : Shortens operand) (Stops : List Token → Prop)
    (hconnective : ∀ ts, Stops (k.token :: ts)) {ts : List Token} {first : Filter}
    (hfirst : ∀ rest, Stops rest → operand (ts ++ rest) = .ok (first, rest))
    {others : List (Filter × List Token)}
    (hothers : ∀ o ∈ others, ∀ rest, Stops rest → operand (o.2 ++ rest) = .ok (o.1, rest))
    {rest : List Token} (hrest : Stops rest) (hstop : rest.head? ≠ some k.token) :
    readJoined k.token k.node operand ((ts ++ others.flatMap fun o => k.token :: o.2) ++ rest) =
      .ok (k.gather first (others.map Prod.fst), rest) := by
  obtain ⟨hstops, hfurther⟩ := further_of_reads Stops hconnective hothers hrest hstop
  rw [List.append_assoc]
  exact (readJoined_iff hshort).mpr ⟨first, _, _, hfirst _ hstops, hfurther, rfl⟩

/-- **A phrase is read as what it means**, if nothing stands behind it that goes on with it. -/
theorem Derives.read {levels : Nat} {rule : Rule} {ts : List Token} {f : Filter}
    (h : Derives levels rule ts f) (limit : Nat) {rest : List Token} (hstop : rule.Stops rest) :
    rule.reader (readOperand limit levels) (ts ++ rest) = .ok (f, rest) := by
  induction h generalizing rest with
  | @condition levels text words c hread =>
      cases levels <;> simp [Rule.reader, readOperand, hread]
  | @group levels ts f _ ih =>
      have hclose : Rule.disjunction.Stops (.closeParen :: rest) := by
        intro k
        cases k <;> simp [Connective.token]
      have hinner := ih hclose
      simp only [Rule.reader] at hinner
      simp [Rule.reader, readOperand, hinner, closeParen]
  | primary _ ih => exact ih trivial
  | negation _ ih =>
      have hinner := @ih rest trivial
      simp only [Rule.reader] at hinner
      simp [Rule.reader, readOperand, hinner]
  | @conjunction levels ts first others _ _ ihfirst ihothers =>
      exact readJoined_of_reads (k := .conjunction) (shortens_readOperand limit levels)
        (fun _ => True) (fun _ => trivial) (fun _ hrest => ihfirst hrest)
        (fun o ho _ hrest => ihothers o ho hrest) trivial hstop
  | @disjunction levels ts first others _ _ ihfirst ihothers =>
      -- an `or` ends every conjunction, and behind the last one neither connective stands
      exact readJoined_of_reads (k := .disjunction)
        (shortens_readJoined (k := .conjunction) (shortens_readOperand limit levels))
        Rule.conjunction.Stops (fun _ => by simp [Rule.Stops, Connective.token])
        (fun _ hrest => ihfirst hrest) (fun o ho _ hrest => ihothers o ho hrest)
        (hstop .conjunction) (hstop .disjunction)

/-! ## Whole filters -/

/-- All tokens are read as one filter exactly if they are a disjunction that means it. -/
theorem ofTokens_iff_derives {limit : Nat} {ts : List Token} {f : Filter} :
    ofTokens limit ts = .ok f ↔ Derives limit .disjunction ts f := by
  rw [ofTokens_iff]
  constructor
  · intro hread
    obtain ⟨used, rfl, hf⟩ := derives_readDisjunction limit limit _ _ _ hread
    rwa [List.append_nil]
  · intro hf
    have hend : Rule.disjunction.Stops [] := by
      intro k
      simp
    have hread := hf.read limit hend
    rwa [List.append_nil] at hread

/-- A phrase means one filter only, however deep its derivations are nested. -/
theorem Derives.unique {m n : Nat} {ts : List Token} {f g : Filter}
    (hf : Derives m .disjunction ts f) (hg : Derives n .disjunction ts g) : f = g := by
  have hreadf := ofTokens_iff_derives.mpr (hf.mono (Nat.le_max_left m n))
  have hreadg := ofTokens_iff_derives.mpr (hg.mono (Nat.le_max_right m n))
  rw [hreadf] at hreadg
  exact Except.ok.inj hreadg

/-- **The reader accepts exactly the grammar.**  Tokens are read as a filter exactly if they are a
disjunction that means it and is nested within the limit; tokens mean one filter at most; and all
other tokens are refused. -/
theorem ofTokens_accepts_grammar (limit : Nat) (ts : List Token) :
    (∀ f, ofTokens limit ts = .ok f ↔ Derives limit .disjunction ts f) ∧
      (∀ m n f g, Derives m .disjunction ts f → Derives n .disjunction ts g → f = g) ∧
      ((∃ e, ofTokens limit ts = .error e) ↔ ¬ ∃ f, Derives limit .disjunction ts f) := by
  refine ⟨fun f => ofTokens_iff_derives, fun m n f g hf hg => hf.unique hg, ?_⟩
  simp only [← ofTokens_iff_derives]
  cases ofTokens limit ts <;> simp

end ListingQuery.Filter
