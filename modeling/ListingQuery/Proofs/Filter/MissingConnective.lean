import ListingQuery.Proofs.Filter.Juxtaposition
import ListingQuery.Proofs.Filter.SingleCondition
import ListingQuery.Proofs.Filter.Words
import ListingQuery.Proofs.Limits

/-!
# Missing connectives

Two conditions with a blank and no connective between them are read as one fragment, and the
missing connective is noticed by a second operator in it.  The search for that operator starts
behind the first one, and from there it can see quotes and lists where the lexer saw none.

* `operatorIn?_juxtaposed_ne_none` is the case in which the operand of the first condition leaves
  nothing open: the second operator is found;
* `missing_connective_accepted_iff` says exactly when the missing connective goes unnoticed, which
  is when the operand of the first condition takes in the second one;
* `missing_connective_unnoticed` is such a pair of conditions.
-/

namespace ListingQuery

namespace Comparison

open ListingQuery.Filter

/-- Where nothing is open the operator of a condition is found. -/
theorem cut_condition {before behind : List Char} {s : Spelling}
    (hsilent : ∀ c ∈ before, Region.Silent c)
    (hat : Spelling.at? (s.chars ++ behind) = some s) (passed : List Char) :
    cutAtOperator? .outside passed (before ++ (s.chars ++ behind)) ≠ none := by
  rw [cut_append_of_silent hsilent, cut_at hat]
  simp

/-- **A second operator is found** behind an operand that leaves nothing open. -/
theorem operatorIn?_juxtaposed_ne_none {operand before behind : List Char} {s : Spelling}
    {f : Field} (hfield : Field.ofName? (Text.trim before) = some f)
    (hat : Spelling.at? (s.chars ++ behind) = some s)
    (hclosed : Region.outside.after [] (Text.trimStart operand) = .outside) :
    operatorIn? (Text.trim (operand ++ ' ' :: (before ++ (s.chars ++ behind)))) ≠ none := by
  have hspace : Region.Silent ' ' := Region.silent_of_isBlank (by decide)
  have hsilent : ∀ c ∈ ' ' :: before, Region.Silent c := by
    intro c hc
    rcases List.mem_cons.mp hc with rfl | hc
    · exact hspace
    · exact Field.silent_of_name hfield c hc
  unfold Text.trim
  rw [Ne, operatorIn?_trimEnd, Text.trimStart_append]
  split
  · -- nothing but blanks in front of the second condition
    have hname : Text.trimStart (' ' :: before) ≠ [] := by
      intro hnil
      have htrim : Text.trim before = [] := congrArg Text.trimEnd hnil
      rw [Field.ofName?_eq_some_iff.mp hfield] at htrim
      exact f.name_ne_nil htrim
    obtain ⟨gap, _, hgap⟩ := Text.exists_trimStart (' ' :: before)
    rw [← List.cons_append, Text.trimStart_append, if_neg hname]
    exact cut_condition (fun c hc => hsilent c (by rw [hgap]; exact List.mem_append_right _ hc))
      hat []
  · unfold operatorIn?
    rw [cut_append hspace.2.2, hclosed]
    cases cutAtOperator? Region.outside [] (Text.trimStart operand) with
    | some found => simp
    | none => exact cut_condition hsilent hat _

/-- What becomes of the fragment that two conditions are read as: it is the first condition with
the second one in its operand, if the operand takes it. -/
theorem read_juxtaposed_iff {t₁ t₂ : List Char} {n₁ n₂ : Nat} {a c : Comparison}
    (hread : Comparison.read t₁ n₁ = .ok a) (hn₁ : 1 ≤ n₁) (hn₂ : 1 ≤ n₂) :
    Comparison.read (t₁ ++ ' ' :: t₂) (n₁ + n₂) = .ok c ↔
      ∃ before s behind, operatorIn? t₁ = some (before, s, behind) ∧
        operatorIn? (Text.trim (behind ++ ' ' :: t₂)) = none ∧
        c.field = a.field ∧ c.op = a.op ∧ c.Takes (Text.trim (behind ++ ' ' :: t₂)) := by
  obtain ⟨before, s, behind, hcut, hop, hfield, _, _⟩ := read_eq_ok_iff.mp hread
  have hspace : ' ' ∉ Spelling.starts := by decide
  have hboth : operatorIn? (t₁ ++ ' ' :: t₂) = some (before, s, behind ++ ' ' :: t₂) := by
    unfold operatorIn? at hcut ⊢
    rw [cut_append hspace, hcut]
  have hwords : 1 < n₁ + n₂ := by omega
  rw [read_eq_ok_iff]
  constructor
  · rintro ⟨before', s', behind', hcut', hop', hfield', hmissing, htakes⟩
    rw [hboth] at hcut'
    cases hcut'
    refine ⟨before, s, behind, hcut, ?_, ?_, ?_, htakes⟩
    · cases hsecond : operatorIn? (Text.trim (behind ++ ' ' :: t₂)) with
      | none => rfl
      | some found => exact absurd ⟨hwords, by rw [hsecond]; rfl⟩ hmissing
    · exact Option.some.inj (hfield'.symm.trans hfield)
    · exact Option.some.inj (hop'.symm.trans hop)
  · rintro ⟨before', s', behind', hcut', hnone, hcfield, hcop, htakes⟩
    rw [hcut] at hcut'
    cases hcut'
    refine ⟨before, s, behind ++ ' ' :: t₂, hboth, by rw [hop, hcop], by rw [hfield, hcfield],
      ?_, htakes⟩
    rintro ⟨_, hsome⟩
    rw [hnone] at hsome
    cases hsome

end Comparison

namespace Filter

open Token

/-! ## The tokens of two conditions -/

/-- Tokens that are no conditions are not joined to those behind them. -/
theorem foldr_join_of_not_fragment {ts : List Token} (hts : ∀ t ∈ ts, t.isFragment = false)
    (us : List Token) : ts.foldr join us = ts ++ us := by
  induction ts with
  | nil => rfl
  | cons t ts ih =>
      rw [List.foldr_cons, ih fun u hu => hts u (List.mem_cons_of_mem _ hu)]
      have ht := hts t List.mem_cons_self
      cases t with
      | fragment _ _ => cases ht
      | _ => rfl

/-- The tokens of two conditions in parentheses: they are one fragment if neither has any, and else
they stand beside each other. -/
theorem join_enclosed (d₁ d₂ n₁ n₂ : Nat) (t₁ t₂ : List Char) :
    (enclosed d₁ t₁ n₁).foldr join (enclosed d₂ t₂ n₂) =
      if d₁ = 0 ∧ d₂ = 0 then [fragment (t₁ ++ ' ' :: t₂) (n₁ + n₂)]
      else enclosed d₁ t₁ n₁ ++ enclosed d₂ t₂ n₂ := by
  cases d₁ with
  | zero => cases d₂ <;> rfl
  | succ d₁ =>
      have hparens : ∀ (t : Token) (d : Nat), t.isFragment = false →
          ∀ u ∈ List.replicate d t, u.isFragment = false := by
        intro t d ht u hu
        rw [List.eq_of_mem_replicate hu]
        exact ht
      generalize enclosed d₂ t₂ n₂ = us
      rw [if_neg (fun h => Nat.succ_ne_zero d₁ h.1), enclosed, List.foldr_append,
        List.foldr_cons, foldr_join_of_not_fragment (hparens _ _ rfl),
        foldr_join_of_not_fragment (hparens _ _ rfl)]
      simp [List.replicate_succ, join]

/-- The tokens of two texts with a blank between them, when each of them is a single condition. -/
theorem ofText_juxtaposed {c₁ c₂ : String} {d₁ d₂ n₁ n₂ : Nat} {t₁ t₂ : List Char}
    (h₁ : ofText c₁.toList = .ok (enclosed d₁ t₁ n₁))
    (h₂ : ofText c₂.toList = .ok (enclosed d₂ t₂ n₂)) :
    1 ≤ n₁ ∧ 1 ≤ n₂ ∧ ofText (c₁ ++ " " ++ c₂).toList =
      .ok (if d₁ = 0 ∧ d₂ = 0 then [fragment (t₁ ++ ' ' :: t₂) (n₁ + n₂)]
        else enclosed d₁ t₁ n₁ ++ enclosed d₂ t₂ n₂) := by
  obtain ⟨ws₁, hscan₁, hjoined₁⟩ := ofText_eq_ok_iff.mp h₁
  obtain ⟨ws₂, hscan₂, hjoined₂⟩ := ofText_eq_ok_iff.mp h₂
  have hcounted : ∀ {cs ws d t n}, scan .outside [] [] cs = .ok ws →
      joined ws = enclosed d t n → 1 ≤ n := by
    intro cs ws d t n hscan hjoined
    obtain ⟨new, rfl, hnew, _⟩ := scan_eq_ok hscan
    exact counted_joined hnew (fragment t n) (by simp [hjoined, enclosed])
  refine ⟨hcounted hscan₁ hjoined₁, hcounted hscan₂ hjoined₂, ?_⟩
  have htext : (c₁ ++ " " ++ c₂).toList = c₁.toList ++ ' ' :: c₂.toList := by
    simp [String.toList_append]
  rw [ofText_eq_ok_iff]
  refine ⟨ws₁ ++ ws₂, htext ▸ scan_append_blank hscan₁ hscan₂, ?_⟩
  rw [joined_append, hjoined₁, hjoined₂, join_enclosed]

/-! ## Acceptance -/

/-- The operand of the condition `a`, whose text is `t₁`, takes in the text `t₂` behind it, and `c`
is what comes of that.  The operand leaves a quote or a list open, no operator is seen from there
on, and the field and the operator of `a` take the whole as an operand. -/
def Swallows (a : Comparison) (t₁ t₂ : List Char) (c : Comparison) : Prop :=
  ∃ before s behind, Comparison.operatorIn? t₁ = some (before, s, behind) ∧
    Region.outside.after [] (Text.trimStart behind) ≠ .outside ∧
    Comparison.operatorIn? (Text.trim (behind ++ ' ' :: t₂)) = none ∧
    c.field = a.field ∧ c.op = a.op ∧ c.Takes (Text.trim (behind ++ ' ' :: t₂))

/-- Two conditions are read as one fragment exactly if the operand of the first swallows the
second. -/
theorem read_iff_swallows {t₁ t₂ : List Char} {n₁ n₂ : Nat} {a b c : Comparison}
    (h₁ : Comparison.read t₁ n₁ = .ok a) (h₂ : Comparison.read t₂ n₂ = .ok b) (hn₁ : 1 ≤ n₁)
    (hn₂ : 1 ≤ n₂) :
    Comparison.read (t₁ ++ ' ' :: t₂) (n₁ + n₂) = .ok c ↔ Swallows a t₁ t₂ c := by
  rw [Comparison.read_juxtaposed_iff h₁ hn₁ hn₂]
  obtain ⟨before₂, s₂, behind₂, hcut₂, _, hfield₂, _, _⟩ := Comparison.read_eq_ok_iff.mp h₂
  obtain ⟨ht₂, hat⟩ := Comparison.cut_eq_some hcut₂
  rw [List.reverse_nil, List.nil_append] at ht₂
  constructor
  · rintro ⟨before, s, behind, hcut, hnone, hrest⟩
    refine ⟨before, s, behind, hcut, fun hclosed => ?_, hnone, hrest⟩
    rw [ht₂] at hnone
    exact Comparison.operatorIn?_juxtaposed_ne_none hfield₂ hat hclosed hnone
  · rintro ⟨before, s, behind, hcut, _, hnone, hrest⟩
    exact ⟨before, s, behind, hcut, hnone, hrest⟩

/-- **When a missing connective goes unnoticed.**  Of two texts that are accepted as one condition
each, the first with the second behind it is accepted in one case only: neither has parentheses
around it, and the operand of the first takes in the second; the filter is then that one condition.
Apart from that only the length of the text matters, and that one condition is allowed at all. -/
theorem missing_connective_accepted_iff {c₁ c₂ : String} {l₁ l₂ : Limits} {a b : Comparison}
    (h₁ : read c₁ l₁ = .ok (.test a)) (h₂ : read c₂ l₂ = .ok (.test b)) (limits : Limits)
    (f : Filter) :
    read (c₁ ++ " " ++ c₂) limits = .ok f ↔
      (c₁ ++ " " ++ c₂).utf8ByteSize ≤
          min limits.filterLength.toNat Limits.maxFilterLength.toNat ∧
        1 ≤ min limits.filterLeaves.toNat Limits.maxFilterLeaves.toNat ∧
        ∃ t₁ n₁ t₂ n₂ c, ofText c₁.toList = .ok [.fragment t₁ n₁] ∧
          ofText c₂.toList = .ok [.fragment t₂ n₂] ∧ Swallows a t₁ t₂ c ∧ f = .test c := by
  rw [← Limits.clamped_filterLength, ← Limits.clamped_filterLeaves]
  obtain ⟨d₁, t₁, n₁, htokens₁, hread₁⟩ := read_test h₁
  obtain ⟨d₂, t₂, n₂, htokens₂, hread₂⟩ := read_test h₂
  obtain ⟨hn₁, hn₂, hboth⟩ := ofText_juxtaposed htokens₁ htokens₂
  constructor
  · intro hread
    obtain ⟨hlength, ⟨hempty, _⟩ | ⟨t, ts, htokens, hbreach, htree⟩⟩ := read_cases hread
    · rw [hboth] at hempty
      split at hempty <;> simp [enclosed] at hempty
    · rw [hboth, Except.ok.injEq] at htokens
      rw [← htokens] at hbreach htree
      by_cases hbare : d₁ = 0 ∧ d₂ = 0
      · rw [if_pos hbare] at hbreach htree
        obtain ⟨rfl, rfl⟩ := hbare
        obtain ⟨c, hc, rfl⟩ := ofTokens_fragment_iff.mp htree
        exact ⟨hlength, firstBreach?_fragment.mp hbreach, t₁, n₁, t₂, n₂, c, htokens₁, htokens₂,
          (read_iff_swallows hread₁ hread₂ hn₁ hn₂).mp hc, rfl⟩
      · rw [if_neg hbare] at htree
        have hnil := ofTokens_enclosed (head_enclosed d₂ t₂ n₂) htree
        simp [enclosed] at hnil
  · rintro ⟨hlength, hleaves, u₁, m₁, u₂, m₂, c, hu₁, hu₂, hswallows, rfl⟩
    rw [htokens₁, Except.ok.injEq] at hu₁
    rw [htokens₂, Except.ok.injEq] at hu₂
    obtain ⟨rfl, rfl, rfl⟩ := enclosed_eq_singleton hu₁
    obtain ⟨rfl, rfl, rfl⟩ := enclosed_eq_singleton hu₂
    rw [if_pos ⟨rfl, rfl⟩] at hboth
    have hc := (read_iff_swallows hread₁ hread₂ hn₁ hn₂).mpr hswallows
    exact read_of_tokens hlength hboth (firstBreach?_fragment.mpr hleaves)
      (ofTokens_fragment_iff.mpr ⟨c, hc, rfl⟩)

/-- The operand of the first condition ends with a quoted bracket.  Behind the operator the bracket
opens a list, because the quote before it does not stand where an operand begins, and the second
condition lies in that list. -/
theorem missing_connective_unnoticed :
    read "ort == x '['" Limits.standard = .ok (.test ⟨.ort, .eq, "x '['", .str "x '['"⟩) ∧
      read "zimmer>=3" Limits.standard = .ok (.test ⟨.zimmer, .ge, "3", .int 3⟩) ∧
      read ("ort == x '['" ++ " " ++ "zimmer>=3") Limits.standard =
        .ok (.test ⟨.ort, .eq, "x '[' zimmer>=3", .str "x '[' zimmer>=3"⟩) := by
  refine ⟨eq_ok_of_toOption ?_, eq_ok_of_toOption ?_, eq_ok_of_toOption ?_⟩ <;> decide +kernel

/-- A postcode that takes in the condition on the town, where one condition is all that is
allowed. -/
theorem missing_connective_of_postcode :
    read ("plz == 30159 \"[\"" ++ " " ++ "ort==Bonn") { Limits.standard with filterLeaves := 1 } =
      .ok (.test ⟨.plz, .eq, "30159 \"[\" ort==Bonn", .str "30159 \"[\" ort==Bonn"⟩) := by
  have h₁ : read "plz == 30159 \"[\"" Limits.standard =
      .ok (.test ⟨.plz, .eq, "30159 \"[\"", .str "30159 \"[\""⟩) :=
    eq_ok_of_toOption (by decide +kernel)
  have h₂ : read "ort==Bonn" Limits.standard = .ok (.test ⟨.ort, .eq, "Bonn", .str "Bonn"⟩) :=
    eq_ok_of_toOption (by decide +kernel)
  refine (missing_connective_accepted_iff h₁ h₂ _ _).mpr ⟨by decide +kernel, by decide,
    "plz == 30159 \"[\"".toList, 4, "ort==Bonn".toList, 1, _, eq_ok_of_toOption (by decide +kernel),
    eq_ok_of_toOption (by decide +kernel), ?_, rfl⟩
  exact ⟨"plz ".toList, ⟨['=', '='], some .eq⟩, " 30159 \"[\"".toList, by decide +kernel,
    by decide +kernel, by decide +kernel, rfl, rfl, by decide +kernel, by decide +kernel⟩

end Filter

end ListingQuery
