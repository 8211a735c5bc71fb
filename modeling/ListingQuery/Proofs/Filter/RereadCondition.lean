import ListingQuery.Proofs.Filter.Display
import ListingQuery.Proofs.Filter.Readings
import ListingQuery.Proofs.Filter.Rescanning

/-!
# Displayed conditions read again

The operand of a condition is displayed between quotes if it has a blank in it, and bare otherwise.
The reader takes quotes off, so that a bare operand may lose some, and it may find the operand to go
on behind its end.  Where it nevertheless reads the condition that was displayed, it has read the
displayed operand and nothing else, so that the condition can be read from its own text alone.

* `Comparison.Rereads` says that a condition can be read from its own text;
* `shown_eq_spaced` is the argument about quotes: of all operands that are taken for the one of the
  condition, only the displayed one is found where it was displayed;
* `rereads_of_readings` is the condition in front of any text.
-/

namespace ListingQuery

open ListingQuery.Filter ListingQuery.Filter.Token

/-! ## Quotes -/

namespace Text

/-- A text between two marks has them at its ends. -/
theorem eq_of_between? {opening closing : Char} {cs inner : List Char}
    (h : between? opening closing cs = some inner) : cs = opening :: (inner ++ [closing]) := by
  cases cs with
  | nil => cases h
  | cons c rest =>
      unfold between? at h
      by_cases hc : c = opening
      · simp only [if_pos hc] at h
        cases hrest : rest.reverse with
        | nil => simp [hrest] at h
        | cons d front =>
            by_cases hd : d = closing
            · simp only [hrest, if_pos hd, Option.some.injEq] at h
              have hback := congrArg List.reverse hrest
              rw [List.reverse_reverse, List.reverse_cons, h, hd] at hback
              rw [hc, hback]
            · simp [hrest, hd] at h
      · simp [hc] at h

end Text

namespace Comparison

/-- Taking the quotes off leaves the text as it is, or what stands between two like quotes. -/
theorem unquote_cases (cs : List Char) :
    (unquote cs).1 = cs ∨
      ∃ q, Region.isQuote q = true ∧ cs = q :: ((unquote cs).1 ++ [q]) := by
  unfold unquote
  cases hdouble : Text.between? '"' '"' cs with
  | some inner => exact Or.inr ⟨'"', rfl, Text.eq_of_between? hdouble⟩
  | none =>
      cases hsingle : Text.between? '\'' '\'' cs with
      | some inner => exact Or.inr ⟨'\'', rfl, Text.eq_of_between? hsingle⟩
      | none => exact Or.inl rfl

/-- The displayed text of the condition is one condition, which is read as the condition itself. -/
def Rereads (c : Comparison) : Prop :=
  ∃ text words, ofText c.text = .ok [.fragment text words] ∧ Comparison.read text words = .ok c

end Comparison

namespace Filter

namespace Token

/-- A text cannot be moved by one quote in front of a detached text. -/
theorem not_prefix_quoted {q : Char} (hq : Region.isQuote q = true) {tail : List Char}
    (htail : Detached tail) (v : List Char) : ¬ (q :: (v ++ [q])) <+: (v ++ tail) := by
  have hmoved : ∀ v back : List Char, q :: (v ++ back) = v ++ tail → tail.head? = some q := by
    intro v back heq
    induction v with
    | nil => rw [← List.nil_append tail, ← heq]; rfl
    | cons x v ih =>
        obtain ⟨rfl, hrest⟩ := List.cons.inj heq
        exact ih hrest
  rintro ⟨back, heq⟩
  rw [List.cons_append, List.append_assoc] at heq
  rcases htail q (hmoved v _ heq) with hblank | rfl
  · rw [(Region.silent_of_isBlank hblank).1] at hq
    cases hq
  · cases hq

/-- The quotes that a text begins with. -/
theorem exists_leading_quotes (cs : List Char) :
    ∃ n rest, cs = List.replicate n '"' ++ rest ∧ rest.head? ≠ some '"' := by
  induction cs with
  | nil => exact ⟨0, [], rfl, by simp⟩
  | cons c cs ih =>
      by_cases hc : c = '"'
      · obtain ⟨n, rest, hcs, hrest⟩ := ih
        exact ⟨n + 1, rest, by rw [hc, hcs, List.replicate_succ, List.cons_append], hrest⟩
      · exact ⟨0, c :: cs, rfl, by simpa using hc⟩

/-- The first word of a text keeps the quotes that the text begins with. -/
theorem prefix_of_leading_quotes {n : Nat} (hn : 0 < n) {cs u : List Char} {words : Nat}
    {more : List Token}
    (h : Token.scan .outside [] [] (List.replicate n '"' ++ cs) =
      .ok (fragment u words :: more)) : List.replicate n '"' <+: u := by
  obtain ⟨r, hrun⟩ := scan_quotes n .outside [] cs []
  rw [hrun, List.append_nil] at h
  have hne : List.replicate n '"' ≠ [] := by
    rw [Ne, List.replicate_eq_nil_iff]
    omega
  obtain ⟨w, others, hws, hfront, _⟩ := first_word hne h
  rw [(eq_of_ofWord (List.cons.inj hws).1.symm).1]
  rwa [List.reverse_replicate] at hfront

/-! ## Words with blanks between them -/

/-- Words with single blanks between them. -/
def spaced : List (List Char) → List Char
  | [] => []
  | w :: ws => merged w ws

/-- Words with blanks between them are tokens of one word each. -/
theorem scan_spaced {ws : List (List Char)} (h : ∀ w ∈ ws, IsWord w) :
    Token.scan .outside [] [] (spaced ws) = .ok (ws.map (fragment · 1)) := by
  cases ws with
  | nil => rfl
  | cons w ws => exact scan_merged h

/-- Without a blank there is one word at most. -/
theorem eq_singleton_of_spaced {ws : List (List Char)} (hne : spaced ws ≠ [])
    (hblank : ∀ c ∈ spaced ws, Text.isBlank c = false) : ws = [spaced ws] := by
  match ws with
  | [] => exact absurd rfl hne
  | [w] => rfl
  | w :: v :: ws =>
      have hspace := hblank ' ' (by simp [spaced, merged])
      exact absurd hspace (by decide)

/-- Words with blanks between them begin with the first word. -/
theorem prefix_spaced (w : List Char) (ws : List (List Char)) : w <+: spaced (w :: ws) := by
  cases ws with
  | nil => exact List.prefix_rfl
  | cons v ws => exact List.prefix_append _ _

/-- The words that a text begins with. -/
theorem exists_words {ts : List Token} (h : ∀ t ∈ ts, Single t) :
    ∃ (ws : List (List Char)) (vs : List Token),
      ts = ws.map (fragment · 1) ++ vs ∧ (∀ w ∈ ws, IsWord w) ∧ Apart vs := by
  induction ts with
  | nil => exact ⟨[], [], rfl, by simp, apart_nil⟩
  | cons t ts ih =>
      obtain ⟨ws, vs, hts, hws, hvs⟩ := ih fun u hu => h u (List.mem_cons_of_mem _ hu)
      cases ht : t.isFragment with
      | false => exact ⟨[], t :: ts, rfl, by simp, apart_cons ht ts⟩
      | true =>
          obtain ⟨w, n, rfl⟩ : ∃ w n, t = fragment w n := by
            cases t with
            | fragment w n => exact ⟨w, n, rfl⟩
            | _ => cases ht
          obtain ⟨rfl, hw⟩ := h _ List.mem_cons_self w n rfl
          exact ⟨w :: ws, vs, by rw [hts]; rfl, List.forall_mem_cons.mpr ⟨hw, hws⟩, hvs⟩

/-- A text behind a displayed condition: it joins nothing before it, and no condition follows. -/
structure Closing (tail : List Char) : Prop where
  detached : Detached tail
  apart : ∀ vs, Token.scan .outside [] [] tail = .ok vs → Apart vs

end Token

end Filter

namespace Comparison

variable {c : Comparison} {tail : List Char} {ws : List (List Char)} {vs : List Token}

/-- A bare operand is not found between quotes, since one of them would have to come from behind
it. -/
theorem not_quoted_of_bare (htail : Closing tail) {v : List Char}
    (hv : ∀ c ∈ v, Text.isBlank c = false)
    (hscan : Token.scan .outside [] [] (v ++ tail) = .ok (ws.map (fragment · 1) ++ vs))
    {q : Char} (hq : Region.isQuote q = true) : spaced ws ≠ q :: (v ++ [q]) := by
  intro hquoted
  have hbare : ∀ c ∈ spaced ws, Text.isBlank c = false := by
    have hqBare : Text.isBlank q = false := by
      cases hblank : Text.isBlank q with
      | false => rfl
      | true => rw [(Region.silent_of_isBlank hblank).1] at hq; cases hq
    intro c hc
    rw [hquoted, List.mem_cons, List.mem_append, List.mem_singleton] at hc
    rcases hc with rfl | hc | rfl
    · exact hqBare
    · exact hv c hc
    · exact hqBare
  rw [eq_singleton_of_spaced (by rw [hquoted]; exact List.cons_ne_nil _ _) hbare] at hscan
  cases v with
  | nil => exact absurd (htail.apart _ hscan _ rfl) (by simp [isFragment])
  | cons d v =>
      have hfirst := prefix_of_scan (fun c hc => hv c (by
        rw [← Option.some.inj hc]
        exact List.mem_cons_self)) hscan
      rw [hquoted] at hfirst
      exact not_prefix_quoted hq htail.detached _ hfirst

/-- An operand between quotes is found with all the quotes that it begins with, and the one in front
of it. -/
theorem leading_quotes_of_quoted {v : List Char} (hne : spaced ws ≠ [])
    (hscan : Token.scan .outside [] [] (inQuotes v ++ tail) = .ok (ws.map (fragment · 1) ++ vs))
    {n : Nat} {rest : List Char} (hv : v = List.replicate n '"' ++ rest) :
    List.replicate (n + 1) '"' <+: spaced ws := by
  obtain ⟨w, ws, rfl⟩ := List.exists_cons_of_ne_nil (fun hnil : ws = [] => hne (by rw [hnil]; rfl))
  have htext : inQuotes v ++ tail = List.replicate (n + 1) '"' ++ (rest ++ '"' :: tail) := by
    rw [hv, List.replicate_succ]
    simp [inQuotes]
  rw [htext] at hscan
  exact (prefix_of_leading_quotes (Nat.succ_pos n) hscan).trans (prefix_spaced w ws)

/-- **Only the displayed operand** is read as the operand of the condition: if the words `ws` are
found where the operand is displayed, and they are taken for its text, then they are the operand as
it is displayed. -/
theorem shown_eq_spaced (htail : Closing tail)
    (hscan : Token.scan .outside [] [] (c.shown ++ tail) = .ok (ws.map (fragment · 1) ++ vs))
    (hraw : c.raw.toList = (unquote (spaced ws)).1) : c.shown = spaced ws := by
  have hcases := unquote_cases (spaced ws)
  rw [← hraw] at hcases
  cases hblank : c.raw.toList.any Text.isBlank with
  | false =>
      have hshown : c.shown = c.raw.toList := by simp [shown, hblank]
      rw [hshown] at hscan ⊢
      rcases hcases with hsame | ⟨q, hq, hquoted⟩
      · exact hsame
      · have hbare : ∀ d ∈ c.raw.toList, Text.isBlank d = false :=
          fun d hd => by simpa using List.any_eq_false.mp hblank d hd
        exact absurd hquoted (not_quoted_of_bare htail hbare hscan hq)
  | true =>
      have hshown : c.shown = inQuotes c.raw.toList := by simp [shown, hblank]
      rw [hshown] at hscan ⊢
      have hrawNe : c.raw.toList ≠ [] := by
        intro hnil
        simp [hnil] at hblank
      rcases hcases with hsame | ⟨q, hq, hquoted⟩
      · -- the operand would have to begin with one quote more than it does
        obtain ⟨n, rest, hlead, hrest⟩ := exists_leading_quotes c.raw.toList
        obtain ⟨back, hback⟩ := leading_quotes_of_quoted (hsame ▸ hrawNe) hscan hlead
        rw [← hsame, hlead, List.replicate_succ', List.append_assoc] at hback
        rw [← List.append_cancel_left hback] at hrest
        exact absurd rfl hrest
      · have hne : spaced ws ≠ [] := by
          rw [hquoted]
          exact List.cons_ne_nil _ _
        have hlead : c.raw.toList = List.replicate 0 '"' ++ c.raw.toList := rfl
        obtain ⟨back, hback⟩ := leading_quotes_of_quoted hne hscan hlead
        rw [hquoted] at hback
        rw [hquoted, ← (List.cons.inj hback).1]
        rfl

/-! ## The whole condition -/

/-- The text behind the operator, as it is read. -/
theorem trim_operand {ws : List (List Char)} (hws : ∀ w ∈ ws, IsWord w) :
    ∃ behind, merged c.field.name.toList (c.op.token.toList :: ws) = c.head ++ behind ∧
      Text.trim behind = spaced ws ∧ ∀ d, behind.head? = some d → d ∉ Spelling.starts := by
  cases ws with
  | nil => exact ⟨[], by simp [merged, head], rfl, by simp⟩
  | cons w ws =>
      refine ⟨' ' :: merged w ws, by simp [merged, head], ?_, ?_⟩
      · have hframed := (framed_merged hws).trim (merged_ne_nil (hws w List.mem_cons_self).ne_nil ws)
          Text.blanks_space Text.blanks_nil
        rwa [List.append_nil] at hframed
      · intro d hd
        rw [← Option.some.inj hd]
        decide

/-- The field and the operator are lexed first. -/
theorem scan_head (c : Comparison) (rest : List Char) :
    Token.scan .outside [] [] (c.head ++ ' ' :: rest) =
      Token.scan .outside []
        [fragment c.op.token.toList 1, fragment c.field.name.toList 1] rest := by
  rw [c.scans_head _ _ (endsWord_blank (by decide) rest), scan_blank (by decide), flush_nil]
  rfl

/-- **A displayed condition that is read where it stands** can be read from its own text. -/
theorem rereads_of_readings {out : List Token} {more : List (Except QueryError Comparison)}
    (htail : Closing tail)
    (hscan : Token.scan .outside [] [] (c.text ++ tail) = .ok out)
    (hread : readings (joined out) = .ok c :: more) : c.Rereads := by
  rw [text_eq, List.append_assoc, List.cons_append, scan_head] at hscan
  obtain ⟨new, rfl, hoperand⟩ := scan_out_eq_ok hscan
  obtain ⟨ws, vs, rfl, hws, hvs⟩ :=
    exists_words (singles_of_scan hoperand (pending_nil _) (by simp))
  have hjoined : ∀ vs, Apart vs →
      joined (fragment c.field.name.toList 1 :: fragment c.op.token.toList 1 ::
        (ws.map (fragment · 1) ++ vs)) =
      fragment (merged c.field.name.toList (c.op.token.toList :: ws)) (ws.length + 2) ::
        joined vs :=
    fun vs hvs => joined_words c.field.name.toList (c.op.token.toList :: ws) hvs
  have hcondition : Comparison.read (merged c.field.name.toList (c.op.token.toList :: ws))
      (ws.length + 2) = .ok c := by
    have hfirst := hread
    rw [List.reverse_cons, List.reverse_singleton, List.append_assoc, List.singleton_append,
      List.singleton_append, hjoined vs hvs, readings_fragment] at hfirst
    exact (List.cons.inj hfirst).1
  obtain ⟨behind, hmerged, htrim, hbehind⟩ := c.trim_operand hws
  have htakes := hcondition
  rw [hmerged, c.read_head_iff hbehind, htrim] at htakes
  obtain ⟨_, _, _, hraw, _⟩ := htakes
  have hshown := shown_eq_spaced htail hoperand (by rw [hraw, String.toList_ofList])
  refine ⟨_, _, ?_, hcondition⟩
  rw [ofText_eq, text_eq, scan_head, hshown, scan_out (scan_spaced hws)]
  have hnil := hjoined [] apart_nil
  rw [List.append_nil] at hnil
  simpa [Except.map, joined] using hnil

/-! ## The text alone -/

/-- A displayed condition does not begin with a parenthesis. -/
theorem head_of_ofText_text {ts : List Token} (h : ofText c.text = .ok ts) :
    ∃ w n rest, ts = fragment w n :: rest := by
  obtain ⟨ws, hscan, rfl⟩ := ofText_eq_ok_iff.mp h
  rw [text_eq, scan_head] at hscan
  obtain ⟨new, rfl, _⟩ := scan_out_eq_ok hscan
  rw [List.reverse_cons, List.reverse_singleton, List.append_assoc, List.singleton_append,
    joined_cons]
  cases joined ([fragment c.op.token.toList 1] ++ new) with
  | nil => exact ⟨_, _, [], rfl⟩
  | cons t ts => cases t <;> exact ⟨_, _, _, rfl⟩

/-- A condition that is read from its own text can be read from it. -/
theorem rereads_of_read {limits : Limits}
    (h : Filter.read (String.ofList c.text) limits = .ok (.test c)) : c.Rereads := by
  obtain ⟨depth, text, words, htext, hread⟩ := read_test h
  rw [String.toList_ofList] at htext
  obtain ⟨w, n, rest, hhead⟩ := head_of_ofText_text htext
  cases depth with
  | zero => exact ⟨text, words, htext, hread⟩
  | succ depth => cases hhead

/-- It is read as a filter wherever its length is allowed, and one condition. -/
theorem Rereads.read (h : c.Rereads) {limits : Limits}
    (hlength : (String.ofList c.text).utf8ByteSize ≤ limits.clamped.filterLength.toNat)
    (hleaves : 1 ≤ limits.clamped.filterLeaves.toNat) :
    Filter.read (String.ofList c.text) limits = .ok (.test c) := by
  obtain ⟨text, words, htext, hread⟩ := h
  rw [← String.toList_ofList (l := c.text)] at htext
  exact read_of_tokens hlength htext (firstBreach?_fragment.mpr hleaves)
    (ofTokens_fragment_iff.mpr ⟨c, hread, rfl⟩)

end Comparison

end ListingQuery
