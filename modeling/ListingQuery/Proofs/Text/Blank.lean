import ListingQuery.Text.Blank

/-!
# Runs and blanks

A run of characters of one kind ends where another character begins, so that a text falls into a run
and the rest in one way.

Blanks at the ends of a text fall away when it is trimmed, and a part that begins or ends with
something else stops the trimming.  A text with blanks around it is a padded one.  A text is cut at
its first separator.
-/

namespace ListingQuery.Text

section Runs

variable {p : Char → Bool} {run rest run' rest' : List Char}

/-- A run is what is taken, and the rest what is left. -/
theorem span_run (hrun : ∀ c ∈ run, p c = true) (hrest : ∀ c, rest.head? = some c → p c = false) :
    (run ++ rest).takeWhile p = run ∧ (run ++ rest).dropWhile p = rest := by
  rw [List.takeWhile_append_of_pos hrun, List.dropWhile_append_of_pos hrun]
  cases rest with
  | nil => simp
  | cons c rest => simp [hrest c rfl]

/-- A text falls into a run and the rest in one way. -/
theorem run_unique (hrun : ∀ c ∈ run, p c = true) (hrest : ∀ c, rest.head? = some c → p c = false)
    (hrun' : ∀ c ∈ run', p c = true) (hrest' : ∀ c, rest'.head? = some c → p c = false)
    (h : run ++ rest = run' ++ rest') : run = run' ∧ rest = rest' := by
  obtain ⟨htake, hdrop⟩ := span_run hrun hrest
  obtain ⟨htake', hdrop'⟩ := span_run hrun' hrest'
  rw [h] at htake hdrop
  exact ⟨htake.symm.trans htake', hdrop.symm.trans hdrop'⟩

end Runs

/-- A text of blanks. -/
def Blanks (gap : List Char) : Prop :=
  ∀ c ∈ gap, isBlank c = true

instance (gap : List Char) : Decidable (Blanks gap) :=
  decidable_of_iff (gap.all isBlank = true) List.all_eq_true

theorem blanks_nil : Blanks [] := by
  intro c hc
  cases hc

theorem blanks_space : Blanks [' '] := by
  intro c hc
  rw [List.mem_singleton.mp hc]
  decide

/-- Blanks without the first one are blanks. -/
theorem Blanks.tail {c : Char} {gap : List Char} (h : Blanks (c :: gap)) : Blanks gap :=
  fun d hd => h d (List.mem_cons_of_mem _ hd)

theorem blanks_reverse {gap : List Char} (h : Blanks gap) : Blanks gap.reverse :=
  fun c hc => h c (List.mem_reverse.mp hc)

/-- A blank is none of a list of characters without blanks. -/
theorem not_mem_of_isBlank {cs : List Char} (hcs : cs.any isBlank = false) {c : Char}
    (hc : isBlank c = true) : c ∉ cs :=
  fun hmem => List.any_eq_false.mp hcs c hmem hc

/-- Blanks at the front fall away. -/
theorem trimStart_gap_append {gap : List Char} (hgap : Blanks gap) (cs : List Char) :
    trimStart (gap ++ cs) = trimStart cs :=
  List.dropWhile_append_of_pos hgap

/-- Blanks at the back fall away. -/
theorem trimEnd_append_gap {gap : List Char} (hgap : Blanks gap) (cs : List Char) :
    trimEnd (cs ++ gap) = trimEnd cs := by
  unfold trimEnd
  rw [List.reverse_append, List.dropWhile_append_of_pos (blanks_reverse hgap)]

/-- What is no blank stays at the front. -/
theorem trimStart_cons {c : Char} (hc : isBlank c = false) (cs : List Char) :
    trimStart (c :: cs) = c :: cs := by
  simp [trimStart, hc]

/-- What is no blank stays at the back. -/
theorem trimEnd_concat {c : Char} (hc : isBlank c = false) (cs : List Char) :
    trimEnd (cs ++ [c]) = cs ++ [c] := by
  simp [trimEnd, hc]

/-- What the front loses are blanks. -/
theorem exists_trimStart (cs : List Char) : ∃ gap, Blanks gap ∧ cs = gap ++ trimStart cs :=
  ⟨cs.takeWhile isBlank, fun c hc => List.all_eq_true.mp List.all_takeWhile c hc,
    List.takeWhile_append_dropWhile.symm⟩

/-- What the back loses are blanks. -/
theorem exists_trimEnd (cs : List Char) : ∃ gap, Blanks gap ∧ cs = trimEnd cs ++ gap := by
  obtain ⟨gap, hgap, hcs⟩ := exists_trimStart cs.reverse
  refine ⟨gap.reverse, blanks_reverse hgap, ?_⟩
  have hback := congrArg List.reverse hcs
  rwa [List.reverse_reverse, List.reverse_append] at hback

/-- What both ends lose are blanks. -/
theorem exists_trim (cs : List Char) :
    ∃ front back, Blanks front ∧ Blanks back ∧ cs = front ++ trim cs ++ back := by
  obtain ⟨front, hfront, hcs⟩ := exists_trimStart cs
  obtain ⟨back, hback, hrest⟩ := exists_trimEnd (trimStart cs)
  refine ⟨front, back, hfront, hback, ?_⟩
  rw [List.append_assoc]
  exact hcs.trans (congrArg (front ++ ·) hrest)

/-- What trimming leaves of a text begins as the text does, unless that is a blank. -/
theorem exists_trim_cons {c : Char} (hc : isBlank c = false) (cs : List Char) :
    ∃ rest, trim (c :: cs) = c :: rest := by
  obtain ⟨gap, hgap, hcs⟩ := exists_trimEnd (c :: cs)
  rw [trim, trimStart_cons hc]
  cases htrim : trimEnd (c :: cs) with
  | nil =>
      rw [htrim, List.nil_append] at hcs
      have hblank := hgap c (hcs ▸ List.mem_cons_self)
      rw [hc] at hblank
      cases hblank
  | cons d rest =>
      rw [htrim, List.cons_append] at hcs
      exact ⟨rest, by rw [(List.cons.inj hcs).1]⟩

/-- Only a text of blanks lets the trimming go on into the text behind it. -/
theorem trimStart_append (cs ds : List Char) :
    trimStart (cs ++ ds) = if trimStart cs = [] then trimStart ds else trimStart cs ++ ds := by
  unfold trimStart
  rw [List.dropWhile_append]
  simp only [List.isEmpty_iff]

/-- A text that neither begins nor ends with a blank. -/
structure Framed (cs : List Char) : Prop where
  first : ∀ c rest, cs = c :: rest → isBlank c = false
  last : ∀ c rest, cs = rest ++ [c] → isBlank c = false

theorem framed_of_no_blank {cs : List Char} (h : ∀ c ∈ cs, isBlank c = false) : Framed cs where
  first := fun c _ hcs => h c (hcs ▸ List.mem_cons_self)
  last := fun c _ hcs => h c (by simp [hcs])

/-- A text that is seen to have no blanks is framed. -/
theorem framed_of_any {cs : List Char} (h : cs.any isBlank = false) : Framed cs :=
  framed_of_no_blank fun c hc => Bool.eq_false_iff.mpr (List.any_eq_false.mp h c hc)

/-- A framed text stays at the front, whatever is behind it. -/
theorem Framed.trimStart_append {cs : List Char} (h : Framed cs) (hne : cs ≠ [])
    (back : List Char) : trimStart (cs ++ back) = cs ++ back := by
  obtain ⟨c, rest, rfl⟩ := List.exists_cons_of_ne_nil hne
  exact trimStart_cons (h.first c rest rfl) _

/-- A framed text loses nothing at the back. -/
theorem Framed.trimEnd {cs : List Char} (h : Framed cs) : trimEnd cs = cs := by
  rcases List.eq_nil_or_concat cs with rfl | ⟨rest, c, hcs⟩
  · rfl
  · rw [List.concat_eq_append] at hcs
    rw [hcs]
    exact trimEnd_concat (h.last c rest hcs) rest

/-- Trimming takes the blanks around a text off. -/
theorem Framed.trim {cs : List Char} (h : Framed cs) (hne : cs ≠ []) {front back : List Char}
    (hfront : Blanks front) (hback : Blanks back) : trim (front ++ cs ++ back) = cs := by
  unfold Text.trim
  rw [List.append_assoc, trimStart_gap_append hfront, h.trimStart_append hne,
    trimEnd_append_gap hback, h.trimEnd]

/-! ## Padded texts -/

/-- The second text is the first one with blanks around it. -/
def Padded (cs padded : List Char) : Prop :=
  ∃ front back, Blanks front ∧ Blanks back ∧ padded = front ++ cs ++ back

/-- Every text is one way to write it with blanks around it. -/
theorem padded_self (cs : List Char) : Padded cs cs :=
  ⟨[], [], blanks_nil, blanks_nil, by simp⟩

/-- A framed text is what trimming leaves of it with blanks around it. -/
theorem Framed.trim_padded {cs padded : List Char} (h : Framed cs) (hne : cs ≠ [])
    (hpadded : Padded cs padded) : Text.trim padded = cs := by
  obtain ⟨front, back, hfront, hback, rfl⟩ := hpadded
  exact h.trim hne hfront hback

theorem Padded.not_mem {cs padded : List Char} (h : Padded cs padded) {c : Char}
    (hblank : isBlank c = false) (hc : c ∉ cs) : c ∉ padded := by
  obtain ⟨front, back, hfront, hback, rfl⟩ := h
  simp only [List.mem_append, not_or]
  refine ⟨⟨fun hmem => ?_, hc⟩, fun hmem => ?_⟩
  · exact Bool.noConfusion (hblank.symm.trans (hfront c hmem))
  · exact Bool.noConfusion (hblank.symm.trans (hback c hmem))

/-! ## Separators -/

/-- A text is cut at the first separator. -/
theorem cut?_append_cons {separates : Char → Bool} {cs : List Char}
    (hcs : ∀ c ∈ cs, separates c = false) {c : Char} (hc : separates c = true)
    (rest : List Char) : cut? separates (cs ++ c :: rest) = some (cs, rest) := by
  induction cs with
  | nil => simp [cut?, hc]
  | cons d cs ih =>
      obtain ⟨hd, hcs⟩ := List.forall_mem_cons.mp hcs
      simp [cut?, hd, ih hcs]

/-- A text without a character is cut in front of the first one that follows. -/
theorem cut?_of_not_mem {c : Char} {cs : List Char} (hcs : c ∉ cs) (rest : List Char) :
    cut? (· == c) (cs ++ c :: rest) = some (cs, rest) := by
  refine cut?_append_cons (fun d hd => ?_) (by simp) rest
  exact beq_eq_false_iff_ne.mpr fun h => hcs (h ▸ hd)

end ListingQuery.Text
