import ListingQuery.Proofs.Json.Scanning

/-!
# JSON text read back

The tokens of a tree are built to the tree again, wherever a value is waited for, so that the text of
a tree is read as the tree.

* `Builder.Awaits` are the states in which a value may begin, and `Builds` says that the tokens of a
  tree supply the tree there;
* `builds_array` and `builds_object` are the loops over items and over members;
* `read?_text` and `read?_prettyText` are the way from a tree to its text and back, and `layouts` are
  the two kinds of text.
-/

namespace ListingQuery.Json

namespace Builder

/-- A value may begin here, for the first of the places that wait for one. -/
def Awaits (b : Builder) (stack : List Frame) : Prop :=
  ∀ t, t ≠ .closeBracket → b.step? t = begin? stack t

/-- Where a value is expected, one may begin. -/
theorem awaits_value (stack : List Frame) : (value stack).Awaits stack := by
  intro t _
  cases t <;> rfl

/-- Behind an opening bracket the first item may begin. -/
theorem awaits_firstItem (stack : List Frame) : (firstItem stack).Awaits (.item [] :: stack) := by
  intro t ht
  cases t with
  | closeBracket => exact absurd rfl ht
  | _ => rfl

/-- A key may begin here, behind the members that are done. -/
def AwaitsKey (b : Builder) (done : List (Option String × Json)) (stack : List Frame) : Prop :=
  ∀ key, b.step? (.str key) = some (.colon done key stack)

/-- The tokens of a tree supply the tree wherever a value may begin. -/
def Builds (j : Json) : Prop :=
  ∀ (b : Builder) (stack : List Frame), b.Awaits stack →
    j.tokens.foldlM step? b = some (supply j stack)

/-! ## Arrays -/

theorem foldlM_items {j : Json} {js : List Json} (hj : Builds j) (hjs : ∀ k ∈ js, Builds k)
    {b : Builder} {done : List Json} {stack : List Frame} (hb : b.Awaits (.item done :: stack)) :
    (itemsTokens (j :: js)).foldlM step? b =
      some (.afterItem ((j :: js).reverse ++ done) stack) := by
  induction js generalizing j b done with
  | nil => exact hj b _ hb
  | cons k ks ih =>
      obtain ⟨hk, hks⟩ := List.forall_mem_cons.mp hjs
      have hcomma : step? (.afterItem (j :: done) stack) .comma =
          some (.value (.item (j :: done) :: stack)) := rfl
      have hrest := ih hk hks (awaits_value (.item (j :: done) :: stack))
      rw [itemsTokens, List.foldlM_append, hj b _ hb]
      change (.comma :: itemsTokens (k :: ks)).foldlM step? (.afterItem (j :: done) stack) = _
      rw [List.foldlM_cons, hcomma]
      simpa using hrest

/-- An array is built if its items are. -/
theorem builds_array {items : List Json} (h : ∀ j ∈ items, Builds j) : Builds (.array items) := by
  intro b stack hb
  have hopen : b.step? .openBracket = some (.firstItem stack) := hb _ nofun
  rw [tokens, List.foldlM_cons, hopen]
  cases items with
  | nil => rfl
  | cons j js =>
      obtain ⟨hj, hjs⟩ := List.forall_mem_cons.mp h
      have hitems := foldlM_items hj hjs (awaits_firstItem stack)
      change (itemsTokens (j :: js) ++ [Token.closeBracket]).foldlM step? (.firstItem stack) = _
      rw [List.foldlM_append, hitems]
      simp [step?]

/-! ## Objects -/

/-- Members as they are done: every key has its value. -/
def doneMembers (members : List (String × Json)) : List (Option String × Json) :=
  members.map fun m => (some m.1, m.2)

/-- Members that are done are read as what they were. -/
theorem readMembers?_doneMembers (members : List (String × Json)) :
    readMembers? (doneMembers members) = some members := by
  induction members with
  | nil => rfl
  | cons m ms ih =>
      obtain ⟨key, j⟩ := m
      change (readMembers? (doneMembers ms)).map ((key, j) :: ·) = _
      rw [ih]
      rfl

/-- A member from its key to its value. -/
theorem foldlM_member (key : String) {j : Json} (hj : Builds j) {b : Builder}
    {done : List (Option String × Json)} {stack : List Frame} (hb : b.AwaitsKey done stack)
    (ts : List Token) :
    (.str (some key) :: .colon :: (j.tokens ++ ts)).foldlM step? b =
      ts.foldlM step? (.afterMember ((some key, j) :: done) stack) := by
  have hcolon : step? (.colon done (some key) stack) .colon =
      some (.value (.member done (some key) :: stack)) := rfl
  have hvalue := hj _ _ (awaits_value (.member done (some key) :: stack))
  rw [List.foldlM_cons, hb (some key)]
  change (.colon :: (j.tokens ++ ts)).foldlM step? (.colon done (some key) stack) = _
  rw [List.foldlM_cons, hcolon]
  change (j.tokens ++ ts).foldlM step? (.value (.member done (some key) :: stack)) = _
  rw [List.foldlM_append, hvalue]
  rfl

theorem foldlM_members {m : String × Json} {ms : List (String × Json)} (hm : Builds m.2)
    (hms : ∀ n ∈ ms, Builds n.2) {b : Builder} {done : List (Option String × Json)}
    {stack : List Frame} (hb : b.AwaitsKey done stack) :
    (membersTokens (m :: ms)).foldlM step? b =
      some (.afterMember ((doneMembers (m :: ms)).reverse ++ done) stack) := by
  induction ms generalizing m b done with
  | nil =>
      have hmember := foldlM_member m.1 hm hb []
      rw [List.append_nil] at hmember
      exact hmember
  | cons n ns ih =>
      obtain ⟨hn, hns⟩ := List.forall_mem_cons.mp hms
      have hcomma : step? (.afterMember ((some m.1, m.2) :: done) stack) .comma =
          some (.nextKey ((some m.1, m.2) :: done) stack) := rfl
      have hrest := ih hn hns (b := .nextKey ((some m.1, m.2) :: done) stack) fun _ => rfl
      rw [membersTokens, foldlM_member m.1 hm hb, List.foldlM_cons, hcomma]
      simpa [doneMembers] using hrest

/-- An object is built if its members are. -/
theorem builds_object {members : List (String × Json)} (h : ∀ m ∈ members, Builds m.2) :
    Builds (.object members) := by
  intro b stack hb
  have hopen : b.step? .openBrace = some (.firstKey stack) := hb _ nofun
  rw [tokens, List.foldlM_cons, hopen]
  cases members with
  | nil => rfl
  | cons m ms =>
      obtain ⟨hm, hms⟩ := List.forall_mem_cons.mp h
      have hmembers := foldlM_members hm hms (b := .firstKey stack) fun _ => rfl
      have hclose : closeObject (doneMembers (m :: ms)).reverse = .object (m :: ms) := by
        rw [closeObject, List.reverse_reverse, readMembers?_doneMembers]
      change (membersTokens (m :: ms) ++ [Token.closeBrace]).foldlM step? (.firstKey stack) = _
      rw [List.foldlM_append, hmembers, List.append_nil]
      simp [step?, hclose]

end Builder

open Builder

/-- A scalar is a value of its own. -/
theorem builds_of_begin? {j : Json} {t : Token} (htokens : j.tokens = [t]) (ht : t ≠ .closeBracket)
    (hbegin : ∀ stack, begin? stack t = some (supply j stack)) : Builds j := by
  intro b stack hb
  rw [htokens, List.foldlM_cons, hb t ht, hbegin]
  rfl

/-- **The tokens of a tree are built to the tree.** -/
theorem Rereadable.builds {j : Json} (h : Rereadable j) : Builds j := by
  induction h with
  | null => exact builds_of_begin? rfl nofun fun _ => rfl
  | bool b => exact builds_of_begin? rfl nofun fun _ => rfl
  | int _ _ => exact builds_of_begin? rfl nofun fun _ => rfl
  | float _ => exact builds_of_begin? rfl nofun fun _ => rfl
  | str s => exact builds_of_begin? rfl nofun fun _ => rfl
  | array _ ih => exact builds_array ih
  | object _ ih => exact builds_object ih

/-- The tokens of a tree are read as the tree. -/
theorem Rereadable.ofTokens? {j : Json} (h : Rereadable j) : ofTokens? j.tokens = some j := by
  have hbuilt := h.builds _ _ (awaits_value [])
  rw [Json.ofTokens?, hbuilt]
  rfl

/-- **The text of a tree is read as the tree**, on one line. -/
theorem read?_text {j : Json} (h : Rereadable j) : read? j.text = some j := by
  rw [read?, h.scans.tokens?, Option.bind_some, h.ofTokens?]

/-- **The text of a tree is read as the tree**, over several lines. -/
theorem read?_prettyText {j : Json} (h : Rereadable j) : read? (j.prettyText 0) = some j := by
  rw [read?, (h.scans_pretty 0).tokens?, Option.bind_some, h.ofTokens?]

/-- The ways to write a tree: on one line and over several. -/
def layouts : List (Json → String) := [compact, pretty]

/-- In each of the layouts a tree is read back. -/
theorem read?_layout {write : Json → String} (hwrite : write ∈ layouts) {j : Json}
    (h : Rereadable j) : read? (write j).toList = some j := by
  rcases List.mem_cons.mp hwrite with rfl | hwrite
  · rw [compact, String.toList_ofList, read?_text h]
  · obtain rfl := List.mem_singleton.mp hwrite
    rw [pretty, String.toList_ofList, read?_prettyText h]

end ListingQuery.Json
