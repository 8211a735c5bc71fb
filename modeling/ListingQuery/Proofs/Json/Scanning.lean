import ListingQuery.Proofs.Json.Scalars

/-!
# JSON text falls into its tokens

A tree is written as the texts of its tokens, one after the other, with or without blanks between
them.  A word has no end of its own: it ends where a mark, a blank or the end of the text follows.
So a text can leave the machine in the middle of a word, and `settled?` is where the machine stands
once the word has been ended.

* `Rereadable` are the trees whose scalars have a text that is read back;
* `Json.tokens` are the tokens of a tree;
* `Closes` and `Scans` say which tokens a text is read as, with nothing left open or with a last
  word open, and how texts are put together;
* `Rereadable.scans` and `Rereadable.scans_pretty` are the text of a tree on one line and over
  several.
-/

namespace ListingQuery.Json

/-! ## Trees and their tokens -/

/-- A tree with a text that is read back: every part of it has a value, its integers are held by 64
bits, and the texts of its floating point numbers are read as these numbers. -/
inductive Rereadable : Json → Prop
  | null : Rereadable .null
  | bool (b : Bool) : Rereadable (.bool b)
  | int {i : Int} (hlower : -2 ^ 63 ≤ i) (hupper : i < 2 ^ 64) : Rereadable (.int i)
  | float {x : Binary64} (hread : number? (NumberLayout.json.text x) = some (.float x)) :
      Rereadable (.float x)
  | str (s : String) : Rereadable (.str s)
  | array {items : List Json} (hitems : ∀ j ∈ items, Rereadable j) : Rereadable (.array items)
  | object {members : List (String × Json)} (hmembers : ∀ m ∈ members, Rereadable m.2) :
      Rereadable (.object members)

mutual

/-- The tokens of a tree. -/
def tokens : Json → List Token
  | .array items => .openBracket :: (itemsTokens items ++ [.closeBracket])
  | .object members => .openBrace :: (membersTokens members ++ [.closeBrace])
  | .str s => [.str (some s)]
  | j => [.scalar j]

/-- The tokens of the items of an array. -/
def itemsTokens : List Json → List Token
  | [] => []
  | [j] => tokens j
  | j :: k :: rest => tokens j ++ .comma :: itemsTokens (k :: rest)

/-- The tokens of the members of an object. -/
def membersTokens : List (String × Json) → List Token
  | [] => []
  | [(key, j)] => .str (some key) :: .colon :: tokens j
  | (key, j) :: m :: rest =>
    .str (some key) :: .colon :: (tokens j ++ .comma :: membersTokens (m :: rest))

end

/-! ## Commas -/

/-- What is put together one by one with a separator is intercalated. -/
theorem eq_intercalate {α β : Type} {separator : β} {one : α → List β} {all : List α → List β}
    (hnil : all [] = []) (hone : ∀ a, all [a] = one a)
    (hmore : ∀ a b as, all (a :: b :: as) = one a ++ separator :: all (b :: as)) (as : List α) :
    all as = [separator].intercalate (as.map one) := by
  induction as with
  | nil => exact hnil
  | cons a as ih =>
      cases as with
      | nil => simp [hone]
      | cons b as => simp [hmore, ih, List.intercalate_cons_cons]

/-- The tokens of items have commas between them. -/
theorem itemsTokens_eq (items : List Json) :
    itemsTokens items = [.comma].intercalate (items.map tokens) :=
  eq_intercalate rfl (fun _ => rfl) (fun _ _ _ => rfl) items

/-- The tokens of members have commas between them, and a colon behind every key. -/
theorem membersTokens_eq (members : List (String × Json)) :
    membersTokens members =
      [.comma].intercalate (members.map fun m => .str (some m.1) :: .colon :: m.2.tokens) :=
  eq_intercalate rfl (fun _ => rfl) (fun _ _ _ => rfl) members

/-- The text of items has commas between them. -/
theorem itemsText_eq (items : List Json) :
    itemsText items = [','].intercalate (items.map text) :=
  eq_intercalate rfl (fun _ => rfl) (fun _ _ _ => rfl) items

/-- The text of members has commas between them, and a colon behind every key. -/
theorem membersText_eq (members : List (String × Json)) :
    membersText members = [','].intercalate (members.map fun m => strText m.1 ++ ':' :: m.2.text) :=
  eq_intercalate rfl (fun _ => rfl) (fun _ _ _ => rfl) members

/-- Over several lines every item begins a line of its own. -/
theorem prettyItems_eq (level : Nat) (items : List Json) :
    prettyItems level items =
      [','].intercalate (items.map fun j => newLine level ++ j.prettyText level) :=
  eq_intercalate rfl (fun _ => rfl) (fun _ _ _ => rfl) items

/-- Over several lines every member begins a line of its own. -/
theorem prettyMembers_eq (level : Nat) (members : List (String × Json)) :
    prettyMembers level members = [','].intercalate (members.map fun m =>
      newLine level ++ strText m.1 ++ ':' :: ' ' :: m.2.prettyText level) :=
  eq_intercalate rfl (fun _ => rfl) (fun _ _ _ => rfl) members

/-! ## Putting texts together -/

namespace Scanner

/-- The machine with an open word ended. -/
def settled? (s : Scanner) : Option Scanner :=
  match s.place with
  | .between => some s
  | .word taken => (wordToken? taken.reverse).map fun t => ⟨t :: s.tokens, .between⟩
  | _ => none

/-- A mark ends an open word. -/
theorem step?_of_settled? {s s' : Scanner} (h : s.settled? = some s') {c : Char}
    (hc : endsWord c = true) : s.step? c = s'.step? c := by
  obtain ⟨tokens, place⟩ := s
  cases place with
  | between =>
      cases h
      rfl
  | word taken =>
      obtain ⟨t, hword, rfl⟩ := Option.map_eq_some_iff.mp h
      simp [step?, hc, hword]
  | text taken => cases h
  | behindBackslash taken => cases h

/-- So does the end of the text. -/
theorem finish?_of_settled? {s : Scanner} {tokens : List Token}
    (h : s.settled? = some ⟨tokens, .between⟩) : s.finish? = some tokens.reverse := by
  obtain ⟨before, place⟩ := s
  cases place with
  | between =>
      cases h
      rfl
  | word taken =>
      obtain ⟨t, hword, hsame⟩ := Option.map_eq_some_iff.mp h
      cases hsame
      simp [finish?, hword]
  | text taken => cases h
  | behindBackslash taken => cases h

/-- The text is read as these tokens, and nothing is left open. -/
def Closes (cs : List Char) (ts : List Token) : Prop :=
  ∀ tokens, cs.foldlM step? ⟨tokens, .between⟩ = some ⟨ts.reverse ++ tokens, .between⟩

/-- The text is read as these tokens, the last of which may be a word that is still open. -/
def Scans (cs : List Char) (ts : List Token) : Prop :=
  ∀ tokens, ∃ s, cs.foldlM step? ⟨tokens, .between⟩ = some s ∧
    s.settled? = some ⟨ts.reverse ++ tokens, .between⟩

variable {cs ds : List Char} {ts us : List Token}

/-- A text that leaves nothing open is read as its tokens. -/
theorem Closes.scans (h : Closes cs ts) : Scans cs ts :=
  fun tokens => ⟨_, h tokens, rfl⟩

theorem closes_nil : Closes [] [] := fun _ => rfl

/-- **Texts one after the other** are read one after the other, if the first leaves nothing open. -/
theorem Closes.append_scans (h : Closes cs ts) (h' : Scans ds us) : Scans (cs ++ ds) (ts ++ us) := by
  intro tokens
  obtain ⟨s, hfold, hsettled⟩ := h' (ts.reverse ++ tokens)
  refine ⟨s, ?_, by simpa using hsettled⟩
  rw [List.foldlM_append, h tokens]
  exact hfold

/-- Texts that leave nothing open leave nothing open together. -/
theorem Closes.append (h : Closes cs ts) (h' : Closes ds us) : Closes (cs ++ ds) (ts ++ us) := by
  intro tokens
  rw [List.foldlM_append, h tokens]
  simpa using h' (ts.reverse ++ tokens)

/-- A mark closes what is left open in front of it. -/
theorem Scans.append_mark (h : Scans cs ts) {c : Char} (hc : endsWord c = true)
    (h' : Closes (c :: ds) us) : Closes (cs ++ c :: ds) (ts ++ us) := by
  intro tokens
  obtain ⟨s, hfold, hsettled⟩ := h tokens
  have hrest := h' (ts.reverse ++ tokens)
  rw [List.foldlM_cons, ← step?_of_settled? hsettled hc, ← List.foldlM_cons] at hrest
  rw [List.foldlM_append, hfold]
  simpa using hrest

/-- A mark is neither a blank nor a quote, and so a token of its own. -/
theorem closes_mark {c : Char} {t : Token} (h : mark? c = some t) : Closes [c] [t] := by
  intro tokens
  have hspace : isSpace c = false := by
    refine Bool.eq_false_iff.mpr fun hspace => ?_
    simp only [isSpace, Bool.or_eq_true, beq_iff_eq] at hspace
    rcases hspace with ((rfl | rfl) | rfl) | rfl <;> cases h
  have hquote : c ≠ '"' := by
    rintro rfl
    cases h
  simp [step?, start, hspace, hquote, h]

/-! ## Texts -/

/-- A hexadecimal digit ends no text and escapes nothing. -/
theorem hexDigit_ne {n : Nat} (h : n < 16) : hexDigit n ≠ '"' ∧ hexDigit n ≠ '\\' := by
  revert n
  decide

/-- Between quotes the text of a character is taken as it stands. -/
theorem foldlM_escapeOne (c : Char) (tokens : List Token) (taken : List Char) :
    (escapeOne c).foldlM step? ⟨tokens, .text taken⟩ =
      some ⟨tokens, .text ((escapeOne c).reverse ++ taken)⟩ := by
  unfold escapeOne
  split
  · rfl
  split
  · rfl
  split
  · rename_i hcontrol
    obtain ⟨hhighQuote, hhighBackslash⟩ := hexDigit_ne (n := c.toNat / 16) (by omega)
    obtain ⟨hlowQuote, hlowBackslash⟩ := hexDigit_ne (n := c.toNat % 16) (by omega)
    repeat'
      split
      · rfl
    simp [step?, hhighQuote, hhighBackslash, hlowQuote, hlowBackslash]
  · rename_i hquote hbackslash _
    simp [step?, hquote, hbackslash]

/-- What a text escapes is taken in whole. -/
theorem foldlM_escaped (cs : List Char) (tokens : List Token) (taken : List Char) :
    (cs.flatMap escapeOne).foldlM step? ⟨tokens, .text taken⟩ =
      some ⟨tokens, .text ((cs.flatMap escapeOne).reverse ++ taken)⟩ := by
  induction cs generalizing taken with
  | nil => rfl
  | cons c cs ih =>
      rw [List.flatMap_cons, List.foldlM_append, foldlM_escapeOne]
      simpa using ih ((escapeOne c).reverse ++ taken)

/-- **A text is one token, whatever is in it.** -/
theorem closes_strText (s : String) : Closes (strText s) [.str (some s)] := by
  intro tokens
  have hopen : step? ⟨tokens, .between⟩ '"' = some ⟨tokens, .text []⟩ := rfl
  rw [strText, List.foldlM_cons, hopen]
  change (s.toList.flatMap escapeOne ++ ['"']).foldlM step? ⟨tokens, .text []⟩ = _
  rw [List.foldlM_append, foldlM_escaped]
  simp [step?, strToken?_escaped]

/-! ## Words -/

/-- The characters of a word are taken in until something ends it. -/
theorem foldlM_word {cs : List Char} (h : ∀ c ∈ cs, endsWord c = false) (tokens : List Token)
    (taken : List Char) :
    cs.foldlM step? ⟨tokens, .word taken⟩ = some ⟨tokens, .word (cs.reverse ++ taken)⟩ := by
  induction cs generalizing taken with
  | nil => rfl
  | cons c cs ih =>
      obtain ⟨hc, hcs⟩ := List.forall_mem_cons.mp h
      rw [List.foldlM_cons]
      simpa [step?, hc] using ih hcs (c :: taken)

theorem scans_word {w : List Char} {t : Token} (hne : w ≠ []) (hends : ∀ c ∈ w, endsWord c = false)
    (hword : wordToken? w = some t) : Scans w [t] := by
  intro tokens
  obtain ⟨c, cs, rfl⟩ := List.exists_cons_of_ne_nil hne
  obtain ⟨hc, hcs⟩ := List.forall_mem_cons.mp hends
  have hfirst : step? ⟨tokens, .between⟩ c = some ⟨tokens, .word [c]⟩ := by
    simp only [endsWord, Bool.or_eq_false_iff, beq_eq_false_iff_ne, Option.isSome_eq_false_iff,
      Option.isNone_iff_eq_none] at hc
    simp [step?, start, hc]
  refine ⟨⟨tokens, .word (c :: cs).reverse⟩, ?_, ?_⟩
  · rw [List.foldlM_cons, hfirst]
    simpa using foldlM_word hcs tokens [c]
  · simp only [settled?, List.reverse_reverse, hword]
    rfl

/-- One of the three names is a word. -/
theorem scans_name {w : List Char} {t : Token} (hends : w.any endsWord = false)
    (hword : wordToken? w = some t) : Scans w [t] := by
  refine scans_word ?_ (by simpa using hends) hword
  rintro rfl
  cases hword

/-- No number has the letters of a name. -/
theorem wordToken?_of_number? {w : List Char} {j : Json} (h : number? w = some j) :
    wordToken? w = some (.scalar j) := by
  unfold wordToken?
  split
  · subst_vars
    cases h
  split
  · subst_vars
    cases h
  split
  · subst_vars
    cases h
  · rw [h]
    rfl

/-- A number is read as one token, its value. -/
theorem scans_number {w : List Char} {j : Json} (h : number? w = some j) : Scans w [.scalar j] := by
  obtain ⟨hne, hends⟩ := not_endsWord_of_number? h
  exact scans_word hne hends (wordToken?_of_number? h)

/-! ## Blanks -/

theorem closes_spaces {cs : List Char} (h : ∀ c ∈ cs, isSpace c = true) : Closes cs [] := by
  intro tokens
  induction cs with
  | nil => rfl
  | cons c cs ih =>
      obtain ⟨hc, hcs⟩ := List.forall_mem_cons.mp h
      rw [List.foldlM_cons]
      simpa [step?, start, hc] using ih hcs

/-- A line break with its indentation has no tokens. -/
theorem closes_newLine (level : Nat) : Closes (newLine level) [] := by
  refine closes_spaces (List.forall_mem_cons.mpr ⟨rfl, ?_⟩)
  intro c hc
  rw [List.eq_of_mem_replicate hc]
  rfl

/-! ## Trees -/

/-- Texts with commas between them, each of which is read as its tokens. -/
theorem scans_intercalate {α : Type} {as : List α} {text : α → List Char} {tokens : α → List Token}
    (h : ∀ a ∈ as, Scans (text a) (tokens a)) :
    Scans ([','].intercalate (as.map text)) ([Token.comma].intercalate (as.map tokens)) := by
  induction as with
  | nil => exact closes_nil.scans
  | cons a as ih =>
      obtain ⟨ha, has⟩ := List.forall_mem_cons.mp h
      cases as with
      | nil => simpa using ha
      | cons b as =>
          have hcomma : Closes (text a ++ [',']) (tokens a ++ [.comma]) :=
            ha.append_mark (by decide) (closes_mark rfl)
          simpa [List.intercalate_cons_cons] using hcomma.append_scans (ih has)

/-- Items are read one by one, with the commas between them. -/
theorem scans_items {items : List Json} (h : ∀ j ∈ items, Scans j.text j.tokens) :
    Scans (itemsText items) (itemsTokens items) := by
  rw [itemsText_eq, itemsTokens_eq]
  exact scans_intercalate h

/-- Members are read one by one, with the commas between them. -/
theorem scans_members {members : List (String × Json)}
    (h : ∀ m ∈ members, Scans m.2.text m.2.tokens) :
    Scans (membersText members) (membersTokens members) := by
  rw [membersText_eq, membersTokens_eq]
  refine scans_intercalate fun m hm => ?_
  exact (closes_strText m.1).append_scans ((closes_mark rfl).append_scans (h m hm))

/-- Items over several lines are read one by one. -/
theorem scans_prettyItems {level : Nat} {items : List Json}
    (h : ∀ j ∈ items, Scans (j.prettyText level) j.tokens) :
    Scans (prettyItems level items) (itemsTokens items) := by
  rw [prettyItems_eq, itemsTokens_eq]
  exact scans_intercalate fun j hj => (closes_newLine level).append_scans (h j hj)

/-- Members over several lines are read one by one. -/
theorem scans_prettyMembers {level : Nat} {members : List (String × Json)}
    (h : ∀ m ∈ members, Scans (m.2.prettyText level) m.2.tokens) :
    Scans (prettyMembers level members) (membersTokens members) := by
  rw [prettyMembers_eq, membersTokens_eq]
  refine scans_intercalate fun m hm => ?_
  have hcolon : Closes [':', ' '] [.colon] :=
    (closes_mark rfl).append (closes_spaces (List.forall_mem_singleton.mpr rfl))
  exact ((closes_newLine level).append (closes_strText m.1)).append_scans
    (hcolon.append_scans (h m hm))

/-- Marks around a text that is read as its tokens. -/
theorem Scans.between {opening closing : Char} {t u : Token} (h : Scans cs ts)
    (hopening : mark? opening = some t) (hclosing : mark? closing = some u) :
    Closes (opening :: (cs ++ [closing])) (t :: (ts ++ [u])) := by
  have hends : endsWord closing = true := by simp [endsWord, hclosing]
  exact (closes_mark hopening).append (h.append_mark hends (closes_mark hclosing))

/-- Marks around lines that are read as their tokens. -/
theorem Scans.betweenLines {opening closing : Char} {t u : Token} (h : Scans cs ts) (level : Nat)
    (hopening : mark? opening = some t) (hclosing : mark? closing = some u) :
    Closes (opening :: (cs ++ newLine level ++ [closing])) (t :: (ts ++ [u])) := by
  have hends : Closes (newLine level ++ [closing]) [u] :=
    (closes_newLine level).append (closes_mark hclosing)
  have hlines := (closes_mark hopening).append (h.append_mark (by decide) hends)
  simpa [newLine] using hlines

end Scanner

open Scanner in
/-- **The text of a tree is read as the tokens of the tree**, on one line. -/
theorem Rereadable.scans {j : Json} (h : Rereadable j) : Scans j.text j.tokens := by
  induction h with
  | null => exact scans_name rfl rfl
  | bool b => cases b <;> exact scans_name rfl rfl
  | int hlower hupper => exact scans_number (number?_ofInt hlower hupper)
  | float hread => exact scans_number hread
  | str s => exact (closes_strText s).scans
  | array _ ih => exact ((scans_items ih).between rfl rfl).scans
  | object _ ih => exact ((scans_members ih).between rfl rfl).scans

open Scanner in
/-- **The text of a tree is read as the tokens of the tree**, over several lines. -/
theorem Rereadable.scans_pretty {j : Json} (h : Rereadable j) (level : Nat) :
    Scans (j.prettyText level) j.tokens := by
  induction h generalizing level with
  | null => exact Rereadable.null.scans
  | bool b => exact (Rereadable.bool b).scans
  | int hlower hupper => exact (Rereadable.int hlower hupper).scans
  | float hread => exact (Rereadable.float hread).scans
  | str s => exact (Rereadable.str s).scans
  | @array items _ ih =>
      cases items with
      | nil => exact (closes_nil.scans.between rfl rfl).scans
      | cons j js =>
          have hitems := scans_prettyItems fun k hk => ih k hk (level + 1)
          exact (hitems.betweenLines level rfl rfl).scans
  | @object members _ ih =>
      cases members with
      | nil => exact (closes_nil.scans.between rfl rfl).scans
      | cons m ms =>
          have hmembers := scans_prettyMembers fun n hn => ih n hn (level + 1)
          exact (hmembers.betweenLines level rfl rfl).scans

/-- A text that is read as tokens has these tokens. -/
theorem Scanner.Scans.tokens? {cs : List Char} {ts : List Token} (h : Scans cs ts) :
    Json.tokens? cs = some ts := by
  obtain ⟨s, hfold, hsettled⟩ := h []
  rw [Json.tokens?, hfold, Option.bind_some, Scanner.finish?_of_settled? hsettled]
  simp

end ListingQuery.Json
