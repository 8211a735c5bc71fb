import ListingQuery.Proofs.Paging
import ListingQuery.Query.Document

/-!
# Paging decodes what it encodes

A limit and a page reach a query as a text or as the two numbers of a document, which are turned into
the text first.  A text is written with numbers that are not negative; a document can hold any signed
words, so that its numbers may be refused.

* `Holds` says that a window has a limit and a page, and `refusedText` what is said of two numbers that
  make no window;
* `read_document` reads the two numbers of a document;
* `written_paging_read` is the result for texts and documents.
-/

namespace ListingQuery.Window

open QueryDocument (PagingText)

/-- The limit and the page of a window are two given numbers. -/
def Holds (w : Window) (limit page : Int) : Prop :=
  (∃ word, w.limit = some word ∧ (word.toNat : Int) = limit) ∧ (w.page.toNat : Int) = page

/-- What is refused of a limit and a page: the first of them that is below zero, or else the limit with
its name. -/
def refusedText (limit page : Int) : String :=
  if limit < 0 then String.ofList (Decimal.ofInt limit)
  else if page < 0 then String.ofList (Decimal.ofInt page)
  else String.ofList ("limit:".toList ++ Decimal.ofInt limit)

variable {pageSize : Option UInt64}

/-- Where neither number is below zero, it is the limit that is refused. -/
theorem refusedText_of_nonneg {limit page : UInt64} :
    refusedText limit.toNat page.toNat =
      String.ofList ("limit:".toList ++ Decimal.ofUInt64 limit) := by
  have hlimit : ¬ (limit.toNat : Int) < 0 := by omega
  have hpage : ¬ (page.toNat : Int) < 0 := by omega
  rw [refusedText, if_neg hlimit, if_neg hpage, Decimal.ofInt_natCast, Decimal.ofUInt64]

/-- Two words make a window with these numbers exactly if the limit is allowed. -/
theorem admitted_verdict (pageSize : Option UInt64) (limit page : UInt64) :
    (Allows pageSize limit.toNat →
      ∃ w, admitted pageSize limit page = .ok w ∧ w.Holds limit.toNat page.toNat) ∧
    (¬ Allows pageSize limit.toNat → admitted pageSize limit page =
      .error (.invalidPagingOption (refusedText limit.toNat page.toNat))) := by
  constructor
  · intro hallows
    exact ⟨_, admitted_of_allows hallows, ⟨limit, rfl, rfl⟩, rfl⟩
  · intro hpasses
    rw [admitted_of_not_allows hpasses, refusedText_of_nonneg]

/-! ## Documents -/

/-- The two numbers of a document are written with the limit in front. -/
theorem toList_window (limit page : Int64) :
    (PagingText.window limit page).text.toList =
      ("limit".toList ++ ':' :: Decimal.ofInt limit.toInt) ++
        ',' :: ("page".toList ++ ':' :: Decimal.ofInt page.toInt) := by
  have htext : (PagingText.window limit page).text = String.ofList
      ("limit:".toList ++ Decimal.ofInt64 limit ++ ",page:".toList ++ Decimal.ofInt64 page) := rfl
  have hlimit : "limit:".toList = "limit".toList ++ [':'] := by decide
  have hpage : ",page:".toList = ',' :: ("page".toList ++ [':']) := by decide
  rw [htext, String.toList_ofList, hlimit, hpage]
  simp only [Decimal.ofInt64, List.append_assoc, List.cons_append, List.nil_append]

/-- Paging that a document gives as two numbers is read as these. -/
theorem read_document (limit page : Int64) :
    read (PagingText.window limit page).text pageSize = (ofInteger limit).bind fun l =>
      (ofInteger page).bind fun p => admitted pageSize l p :=
  read_limitFirst (toList_window limit page) (writesLimit_self _) (writesPage_self _)

/-- A signed word that is not negative is a number of paging. -/
theorem exists_ofInteger {i : Int64} (h : 0 ≤ i.toInt) :
    ∃ n : UInt64, ofInteger i = .ok n ∧ (n.toNat : Int) = i.toInt := by
  have hsize := i.toInt_lt
  have hword : (UInt64.ofNat i.toInt.toNat).toNat = i.toInt.toNat := toNat_ofNat (by omega)
  exact ⟨_, by rw [ofInteger, if_pos h], by omega⟩

/-- A negative number is refused, and named. -/
theorem ofInteger_of_neg {i : Int64} (h : i.toInt < 0) :
    ofInteger i = .error (.invalidPagingOption (String.ofList (Decimal.ofInt i.toInt))) := by
  rw [ofInteger, if_neg (by omega), Decimal.ofInt64]

/-- **The two numbers of a document** make a window with these numbers, or are refused. -/
theorem document_verdict (pageSize : Option UInt64) (limit page : Int64) :
    ((0 ≤ limit.toInt ∧ 0 ≤ page.toInt ∧ Allows pageSize limit.toInt) →
      ∃ w, read (PagingText.window limit page).text pageSize = .ok w ∧
        w.Holds limit.toInt page.toInt) ∧
    (¬ (0 ≤ limit.toInt ∧ 0 ≤ page.toInt ∧ Allows pageSize limit.toInt) →
      read (PagingText.window limit page).text pageSize =
        .error (.invalidPagingOption (refusedText limit.toInt page.toInt))) := by
  rw [read_document]
  by_cases hlimit : limit.toInt < 0
  · refine ⟨fun h => absurd h.1 (by omega), fun _ => ?_⟩
    rw [ofInteger_of_neg hlimit, refusedText, if_pos hlimit]
    rfl
  obtain ⟨l, hl, hlword⟩ := exists_ofInteger (Int.not_lt.mp hlimit)
  rw [hl]
  by_cases hpage : page.toInt < 0
  · refine ⟨fun h => absurd h.2.1 (by omega), fun _ => ?_⟩
    rw [ofInteger_of_neg hpage, refusedText, if_neg hlimit, if_pos hpage]
    rfl
  obtain ⟨p, hp, hpword⟩ := exists_ofInteger (Int.not_lt.mp hpage)
  rw [hp, ← hlword, ← hpword]
  obtain ⟨hok, herror⟩ := admitted_verdict pageSize l p
  refine ⟨fun h => hok h.2.2, fun h => herror fun hallows => h ⟨?_, ?_, hallows⟩⟩ <;> omega

/-! ## Texts and documents -/

/-- **Paging decodes what it encodes.**  A limit and a page that are written as a text, in either order
and with blanks around the names and the numbers, are read as the window with these numbers if the
limit is allowed, and refused otherwise.  The two numbers of a document are read as the window with
these numbers exactly if neither is negative and the limit is allowed. -/
theorem written_paging_read (pageSize : Option UInt64) :
    (∀ (limit page : Nat) (source : String), limit < 2 ^ 63 → page < 2 ^ 63 →
      WritesPaging limit page source →
        (Allows pageSize limit → ∃ w, read source pageSize = .ok w ∧ w.Holds limit page) ∧
        (¬ Allows pageSize limit → read source pageSize =
          .error (.invalidPagingOption (refusedText limit page)))) ∧
    ∀ limit page : Int64,
      ((0 ≤ limit.toInt ∧ 0 ≤ page.toInt ∧ Allows pageSize limit.toInt) →
        ∃ w, read (PagingText.window limit page).text pageSize = .ok w ∧
          w.Holds limit.toInt page.toInt) ∧
      (¬ (0 ≤ limit.toInt ∧ 0 ≤ page.toInt ∧ Allows pageSize limit.toInt) →
        read (PagingText.window limit page).text pageSize =
          .error (.invalidPagingOption (refusedText limit.toInt page.toInt))) := by
  refine ⟨fun limit page source hlimit hpage hwrites => ?_, document_verdict pageSize⟩
  have hverdict := admitted_verdict pageSize (UInt64.ofNat limit) (UInt64.ofNat page)
  rw [toNat_ofNat hlimit, toNat_ofNat hpage] at hverdict
  rw [read_writesPaging hlimit hpage hwrites]
  exact hverdict

/-- A page with blanks and in front of its limit is read, up to the largest page; a document with a
limit below zero is refused with that limit. -/
theorem padded_paging_read :
    WritesPaging 100 3 "\tpage : 3,limit: 100 " ∧
      (∃ w, read "\tpage : 3,limit: 100 " (some 100) = .ok w ∧ w.Holds 100 3) ∧
      read "\tpage : 3,limit: 100 " (some 99) = .error (.invalidPagingOption "limit:100") ∧
      read (PagingText.window Int64.minValue 0).text none =
        .error (.invalidPagingOption "-9223372036854775808") := by
  have hpage : WritesPage 3 "\tpage : 3".toList :=
    ⟨"\tpage ".toList, " 3".toList, ⟨['\t'], [' '], by decide, by decide, by decide⟩,
      ⟨[' '], [], by decide, by decide, by decide +kernel⟩, by decide⟩
  have hlimit : WritesLimit 100 "limit: 100 ".toList :=
    ⟨"limit".toList, " 100 ".toList, Text.padded_self _,
      ⟨[' '], [' '], by decide, by decide, by decide +kernel⟩, by decide⟩
  have hwrites : WritesPaging 100 3 "\tpage : 3,limit: 100 " :=
    ⟨_, _, by decide, Or.inr ⟨hpage, hlimit⟩⟩
  have hrefused : refusedText 100 3 = "limit:100" := by decide +kernel
  have hleast : refusedText Int64.minValue.toInt 0 = "-9223372036854775808" := by decide +kernel
  refine ⟨hwrites, ?_, ?_, ?_⟩
  · exact ((written_paging_read (some 100)).1 100 3 _ (by decide) (by decide) hwrites).1
      (by rintro _ ⟨⟩; decide)
  · have h := ((written_paging_read (some 99)).1 100 3 _ (by decide) (by decide) hwrites).2
      fun h => absurd (h 99 rfl) (by decide)
    rwa [← hrefused]
  · have h := ((written_paging_read none).2 Int64.minValue 0).2 fun h => absurd h.1 (by decide)
    rwa [← hleast]

end ListingQuery.Window
