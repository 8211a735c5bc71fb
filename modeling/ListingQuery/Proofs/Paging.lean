import ListingQuery.Proofs.Number.Decimal
import ListingQuery.Query.Options

/-!
# Paging as it is written

A limit and a page are written as two items with a comma between them, each a name and a number with
a colon between.  Blanks may stand around the names and the numbers, and either item may come first.

* `WritesPaging` are the texts of a limit and a page;
* `readItem_limit` and `readItem_page` say what an item is read as, for every signed word;
* `read_limitFirst` and `read_pageFirst` are paging in one order and in the other: the first number
  below zero is refused, and then a limit that is too large;
* `read_writesPaging` says that the order does not matter where no number is negative, and
  `read_pagingText` that a limit and a page are read as the window they stand for.
-/

namespace ListingQuery.Window

/-! ## Written items -/

/-- An item as it can be written: a name and a number with a colon between them, and blanks around
both. -/
def WritesItem (name number item : List Char) : Prop :=
  ∃ key value, Text.Padded name key ∧ Text.Padded number value ∧ item = key ++ ':' :: value

/-- The item of a limit. -/
def WritesLimit (limit : Int) : List Char → Prop :=
  WritesItem "limit".toList (Decimal.ofInt limit)

/-- The item of a page. -/
def WritesPage (page : Int) : List Char → Prop :=
  WritesItem "page".toList (Decimal.ofInt page)

theorem writesItem_self (name number : List Char) :
    WritesItem name number (name ++ ':' :: number) :=
  ⟨name, number, Text.padded_self name, Text.padded_self number, rfl⟩

theorem writesLimit_self (limit : Int) :
    WritesLimit limit ("limit".toList ++ ':' :: Decimal.ofInt limit) :=
  writesItem_self _ _

theorem writesPage_self (page : Int) :
    WritesPage page ("page".toList ++ ':' :: Decimal.ofInt page) :=
  writesItem_self _ _

variable {name number item first second : List Char} {pageSize : Option UInt64}

/-- A character that is in neither part of an item, and neither a colon nor a blank, is not in the
item. -/
theorem WritesItem.not_mem (h : WritesItem name number item) {c : Char}
    (hblank : Text.isBlank c = false) (hcolon : c ≠ ':') (hname : c ∉ name) (hnumber : c ∉ number) :
    c ∉ item := by
  obtain ⟨key, value, hkey, hvalue, rfl⟩ := h
  simp only [List.mem_append, List.mem_cons, not_or]
  exact ⟨hkey.not_mem hblank hname, hcolon, hvalue.not_mem hblank hnumber⟩

theorem comma_not_mem_ofInt (i : Int) : ',' ∉ Decimal.ofInt i := by
  intro h
  rcases Decimal.mem_ofInt h with h | h <;> exact absurd h (by decide)

theorem comma_not_mem_digits (n : Nat) : ',' ∉ Decimal.digits n :=
  Decimal.ofInt_natCast n ▸ comma_not_mem_ofInt n

theorem comma_not_mem_item {i : Int} (hname : ',' ∉ name)
    (h : WritesItem name (Decimal.ofInt i) item) : ',' ∉ item :=
  h.not_mem (by decide) (by decide) hname (comma_not_mem_ofInt i)

/-! ## Reading an item -/

/-- The number of paging that an integer is; one below zero is refused. -/
def ofInteger (i : Int64) : Except QueryError UInt64 :=
  if 0 ≤ i.toInt then .ok (UInt64.ofNat i.toInt.toNat)
  else .error (.invalidPagingOption (String.ofList (Decimal.ofInt64 i)))

/-- A number with blanks around it or not is read as the number. -/
theorem readNumber_padded (i : Int64) {value : List Char}
    (h : Text.Padded (Decimal.ofInt64 i) value) : readNumber value = ofInteger i := by
  have htrim : Text.trim value = Decimal.ofInt64 i :=
    (Decimal.framed_ofInt _).trim_padded (Decimal.ofInt_ne_nil _) h
  simp only [readNumber, htrim, Decimal.int64?_ofInt64, ofInteger]

/-- The key and the number of an item. -/
theorem WritesItem.parts (h : WritesItem name number item) (hframed : Text.Framed name)
    (hne : name ≠ []) (hcolon : ':' ∉ name) :
    ∃ key value, Text.cut? (· == ':') item = some (key, value) ∧ Text.trim key = name ∧
      Text.Padded number value := by
  obtain ⟨key, value, hkey, hvalue, rfl⟩ := h
  exact ⟨key, value, Text.cut?_of_not_mem (hkey.not_mem (by decide) hcolon) value,
    hframed.trim_padded hne hkey, hvalue⟩

/-- The name of the limit needs no trimming. -/
theorem framed_limit : Text.Framed "limit".toList :=
  Text.framed_of_any (by decide)

/-- The name of the page needs no trimming. -/
theorem framed_page : Text.Framed "page".toList :=
  Text.framed_of_any (by decide)

/-- **The item of a limit** sets the limit, or is refused with its number. -/
theorem readItem_limit (items : Items) {i : Int64} (h : WritesLimit i.toInt item) :
    readItem items item = (ofInteger i).map fun n => { items with limit := some n } := by
  obtain ⟨key, value, hcut, hkey, hvalue⟩ := h.parts framed_limit (by decide) (by decide)
  unfold readItem
  simp only [hcut, Option.getD_some, hkey, if_true, readNumber_padded i hvalue]

/-- **The item of a page** sets the page, or is refused with its number. -/
theorem readItem_page (items : Items) {i : Int64} (h : WritesPage i.toInt item) :
    readItem items item = (ofInteger i).map fun n => { items with page := some n } := by
  obtain ⟨key, value, hcut, hkey, hvalue⟩ := h.parts framed_page (by decide) (by decide)
  have hother : "page".toList ≠ "limit".toList := by decide
  unfold readItem
  simp only [hcut, Option.getD_some, hkey, hother, if_true, if_false, readNumber_padded i hvalue]

/-! ## Reading both items -/

/-- The window of a limit and a page, unless the limit passes the largest page. -/
def admitted (pageSize : Option UInt64) (limit page : UInt64) : Except QueryError Window :=
  if passes limit pageSize then
    .error (.invalidPagingOption (String.ofList ("limit:".toList ++ Decimal.ofUInt64 limit)))
  else .ok ⟨some limit, page⟩

/-- Two items with a comma between them are cut there and nowhere else. -/
theorem splitOn_items {source : String} (h : source.toList = first ++ ',' :: second)
    (hfirst : ',' ∉ first) (hsecond : ',' ∉ second) :
    source.toList.splitOn ',' = [first, second] := by
  rw [h, List.splitOn_append_cons_self_of_not_mem hfirst, List.splitOn_eq_singleton hsecond]

/-- Paging with the limit in front. -/
theorem read_limitFirst {source : String} (h : source.toList = first ++ ',' :: second)
    {limit page : Int64} (hlimit : WritesLimit limit.toInt first)
    (hpage : WritesPage page.toInt second) :
    read source pageSize = (ofInteger limit).bind fun l =>
      (ofInteger page).bind fun p => admitted pageSize l p := by
  have hsplit := splitOn_items h (comma_not_mem_item (by decide) hlimit)
    (comma_not_mem_item (by decide) hpage)
  unfold read
  simp only [hsplit, readItem_limit _ hlimit, readItem_page _ hpage]
  cases ofInteger limit with
  | error e => rfl
  | ok l => cases ofInteger page <;> rfl

/-- Paging with the page in front. -/
theorem read_pageFirst {source : String} (h : source.toList = first ++ ',' :: second)
    {limit page : Int64} (hpage : WritesPage page.toInt first)
    (hlimit : WritesLimit limit.toInt second) :
    read source pageSize = (ofInteger page).bind fun p =>
      (ofInteger limit).bind fun l => admitted pageSize l p := by
  have hsplit := splitOn_items h (comma_not_mem_item (by decide) hpage)
    (comma_not_mem_item (by decide) hlimit)
  unfold read
  simp only [hsplit, readItem_limit _ hlimit, readItem_page _ hpage]
  cases ofInteger page with
  | error e => rfl
  | ok p => cases ofInteger limit <;> rfl

/-! ## The largest page -/

/-- Does the largest page, if there is one, leave room for a limit? -/
def Allows (pageSize : Option UInt64) (limit : Int) : Prop :=
  ∀ most, pageSize = some most → limit ≤ most.toNat

/-- A limit passes exactly if the largest page leaves no room for it. -/
theorem passes_eq_false_iff (limit : UInt64) :
    passes limit pageSize = false ↔ Allows pageSize limit.toNat := by
  cases pageSize with
  | none => simp [passes, Allows]
  | some most => simp [passes, Allows, UInt64.le_iff_toNat_le]

/-- A limit that there is room for is admitted. -/
theorem admitted_of_allows {limit page : UInt64} (h : Allows pageSize limit.toNat) :
    admitted pageSize limit page = .ok ⟨some limit, page⟩ := by
  rw [admitted, (passes_eq_false_iff limit).mpr h, if_neg Bool.false_ne_true]

/-- A limit that there is no room for is refused, and named. -/
theorem admitted_of_not_allows {limit page : UInt64} (h : ¬ Allows pageSize limit.toNat) :
    admitted pageSize limit page =
      .error (.invalidPagingOption (String.ofList ("limit:".toList ++ Decimal.ofUInt64 limit))) := by
  rw [← passes_eq_false_iff, Bool.not_eq_false] at h
  rw [admitted, if_pos h]

/-! ## Numbers that are not negative -/

/-- A number below `2 ^ 63` is the same as a signed word. -/
theorem toInt_ofInt_natCast {n : Nat} (h : n < 2 ^ 63) : (Int64.ofInt n).toInt = n :=
  Int64.toInt_ofInt_of_le (by omega) (by omega)

/-- A number below `2 ^ 63` is the same as a word. -/
theorem toNat_ofNat {n : Nat} (h : n < 2 ^ 63) : (UInt64.ofNat n).toNat = n :=
  UInt64.toNat_ofNat_of_lt' (Nat.lt_trans h (by decide))

/-- A number below `2 ^ 63` is taken as a number of paging. -/
theorem ofInteger_ofInt {n : Nat} (h : n < 2 ^ 63) :
    ofInteger (Int64.ofInt n) = .ok (UInt64.ofNat n) := by
  rw [ofInteger, toInt_ofInt_natCast h, if_pos (Int.natCast_nonneg n), Int.toNat_natCast]

/-- Paging as it can be written: the items of a limit and a page with a comma between them, either of
them first. -/
def WritesPaging (limit page : Int) (source : String) : Prop :=
  ∃ first second, source.toList = first ++ ',' :: second ∧
    (WritesLimit limit first ∧ WritesPage page second ∨
      WritesPage page first ∧ WritesLimit limit second)

variable {limit page : Nat}

/-- Of two numbers that are not negative the order of the items does not matter. -/
theorem read_writesPaging {source : String} (hlimit : limit < 2 ^ 63) (hpage : page < 2 ^ 63)
    (h : WritesPaging limit page source) :
    read source pageSize = admitted pageSize (UInt64.ofNat limit) (UInt64.ofNat page) := by
  obtain ⟨first, second, hsource, hitems⟩ := h
  rw [← toInt_ofInt_natCast hlimit, ← toInt_ofInt_natCast hpage] at hitems
  rcases hitems with ⟨hfirst, hsecond⟩ | ⟨hfirst, hsecond⟩
  · rw [read_limitFirst hsource hfirst hsecond, ofInteger_ofInt hlimit, ofInteger_ofInt hpage]
    rfl
  · rw [read_pageFirst hsource hfirst hsecond, ofInteger_ofInt hlimit, ofInteger_ofInt hpage]
    rfl

/-- A limit and a page as a text. -/
def pagingText (limit page : Nat) : String :=
  String.ofList (("limit".toList ++ ':' :: Decimal.digits limit) ++
    ',' :: ("page".toList ++ ':' :: Decimal.digits page))

/-- The text of a limit and a page is one way to write them. -/
theorem writesPaging_pagingText (limit page : Nat) :
    WritesPaging limit page (pagingText limit page) := by
  refine ⟨_, _, String.toList_ofList, Or.inl ?_⟩
  rw [← Decimal.ofInt_natCast, ← Decimal.ofInt_natCast]
  exact ⟨writesLimit_self _, writesPage_self _⟩

/-- **Paging is read as it was written**, where the limit is allowed. -/
theorem read_pagingText {pageSize : Option UInt64} (hlimit : limit < 2 ^ 63) (hpage : page < 2 ^ 63)
    (hallowed : ∀ most, pageSize = some most → limit ≤ most.toNat) :
    read (pagingText limit page) pageSize =
      .ok ⟨some (UInt64.ofNat limit), UInt64.ofNat page⟩ := by
  have hallows : Allows pageSize (UInt64.ofNat limit).toNat := by
    rw [toNat_ofNat hlimit]
    exact fun most hmost => Int.ofNat_le.mpr (hallowed most hmost)
  rw [read_writesPaging hlimit hpage (writesPaging_pagingText limit page),
    admitted_of_allows hallows]

end ListingQuery.Window
