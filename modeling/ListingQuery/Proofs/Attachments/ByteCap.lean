import ListingQuery.Proofs.Attachments.Charging

/-!
# The byte cap of an allocation

An allocation under a byte cap charges the attachments that ship and do not lie with somebody else.
`Allocation.KeepsCap` says that their exact sizes add up to at most the cap, that the reported bytes
are that sum, and that what is reported as left is the rest of the cap.

* `bytesUsed_eq` is the general law: the reported bytes are the exact sum, cut at the largest word;
* `keepsCap_iff` says exactly when the cap is kept: always, if the cap is below the largest word,
  and under the largest word itself exactly if what the count caps alone let through fits a word;
* `twoPictures_pass_largest_cap` is a case where it does not: a total that saturates at the largest
  word never passes it, so nothing closes a category.
-/

namespace ListingQuery

/-- The attachments that ship and are charged. -/
def Allocation.charged (a : Allocation) (attachments : List Attachment) : List Attachment :=
  (a.pick attachments).filter fun x => !x.isRemote

/-- The attachments that the count caps alone let through, category by category. -/
def Budget.countedFirst (b : Budget) (attachments : List Attachment) : List Attachment :=
  Category.all.flatMap fun c =>
    Allocation.Walk.upTo ((b.countCap c).map UInt32.toNat)
      (attachments.filter fun a => a.category == c && !a.isRemote)

namespace Allocation

/-- What is charged stays within the cap, and the reported bytes used and left are exact. -/
structure KeepsCap (a : Allocation) (attachments : List Attachment) (cap : UInt64) : Prop where
  charged_le : totalBytes (a.charged attachments) ≤ cap.toNat
  used_eq : a.bytesUsed.toNat = totalBytes (a.charged attachments)
  remaining_eq : ∃ left, a.bytesRemaining = some left ∧
    left.toNat = cap.toNat - totalBytes (a.charged attachments)

/-! ## What ships, read off the table -/

/-- A row of the table stands at the position of its attachment, under its category. -/
theorem row_of_keys {attachments : List Attachment} {rows : List Row}
    (hkeys : rows.map Row.key = (uncharged attachments).map Row.key) {r : Row} (hr : r ∈ rows) :
    attachments[r.2.index]? = some r.1 ∧ r.2.category = r.1.category := by
  have hkey : r.key ∈ (uncharged attachments).map Row.key := by
    rw [← hkeys]
    exact List.mem_map_of_mem hr
  obtain ⟨start, hstart, heq⟩ := List.mem_map.mp hkey
  obtain ⟨⟨a, i⟩, hmem, rfl⟩ := List.mem_map.mp hstart
  simp only [Row.key, Prod.mk.injEq] at heq
  obtain ⟨ha, hi, hc⟩ := heq
  rw [← ha, ← hi, ← hc]
  exact ⟨List.mem_zipIdx_iff_getElem?.mp hmem, rfl⟩

/-- The allocation picks the attachments of the rows that ship, in the order of the table. -/
theorem pick_of_keys {attachments : List Attachment} {rows : List Row}
    (hkeys : rows.map Row.key = (uncharged attachments).map Row.key)
    (used : UInt64) (left : Option UInt64) :
    (Allocation.mk (rows.map (·.2)) used left).pick attachments =
      (rows.filter fun r => r.2.verdict.ships).map (·.1) := by
  have hrows : ∀ r ∈ rows, attachments[r.2.index]? = some r.1 :=
    fun r hr => (row_of_keys hkeys hr).1
  unfold pick shipped
  clear hkeys
  induction rows with
  | nil => rfl
  | cons r rows ih =>
      have hrest := ih fun r hr => hrows r (List.mem_cons_of_mem _ hr)
      have hhead := hrows r List.mem_cons_self
      cases hships : r.2.verdict.ships with
      | true => simpa [hships, hhead] using hrest
      | false => simpa [hships] using hrest

/-- Every attachment that ships and is charged is charged to one of the categories. -/
theorem totalBytes_shipped (rows : List Row) :
    totalBytes (((rows.filter fun r => r.2.verdict.ships).map (·.1)).filter fun x => !x.isRemote) =
      totalBytes (Category.all.flatMap fun c => shippedTo c rows) := by
  induction rows with
  | nil => rfl
  | cons r rows ih =>
      obtain ⟨a, i, c, v⟩ := r
      simp only [Category.all, List.flatMap_cons, List.flatMap_nil, totalBytes_append,
        totalBytes_nil, shippedTo_cons, charges] at ih ⊢
      by_cases hships : v.ships = true
      · by_cases hremote : a.isRemote = true
        · simp [hships, hremote, ih]
        · cases c <;> simp [hships, hremote, ih] <;> omega
      · simp [hships, ih]

/-- The attachments of a table charged to a category are those of the list. -/
theorem chargedTo_uncharged (c : Category) (attachments : List Attachment) :
    chargedTo c (uncharged attachments) =
      attachments.filter fun a => a.category == c && !a.isRemote := by
  calc chargedTo c (uncharged attachments)
      = (attachments.zipIdx.map (·.1)).filter fun a => a.category == c && !a.isRemote := by
        simp only [chargedTo, uncharged, List.filter_map, List.map_map]
        rfl
    _ = attachments.filter fun a => a.category == c && !a.isRemote := by
        rw [List.zipIdx_map_fst]

/-! ## The cap -/

/-- Without an explicit selection and with a byte cap, the allocation is the table behind all
categories. -/
theorem of_byteCap (attachments : List Attachment) {budget : Budget} {cap : UInt64}
    (hcap : budget.byteCap = some cap) :
    Allocation.of attachments .all budget =
      .ok ⟨(serveAll budget (Ledger.new (some cap)) (uncharged attachments) Category.all).1.map
          (·.2),
        (serveAll budget (Ledger.new (some cap)) (uncharged attachments) Category.all).2.used,
        (serveAll budget (Ledger.new (some cap)) (uncharged attachments)
          Category.all).2.remaining⟩ := by
  simp [Allocation.of, Selection.isExplicit, Budget.validate, Budget.isLimited, hcap, Except.map]

/-- **The bytes reported as used** are the exact sizes of what ships and is charged, cut at the
largest word. -/
theorem bytesUsed_eq {attachments : List Attachment} {budget : Budget} {cap : UInt64}
    (hcap : budget.byteCap = some cap) {a : Allocation}
    (ha : Allocation.of attachments .all budget = .ok a) :
    a.bytesUsed.toNat = min Ledger.largest (totalBytes (a.charged attachments)) := by
  rw [of_byteCap attachments hcap, Except.ok.injEq] at ha
  subst ha
  have hkeys := serveAll_keys budget (Ledger.new (some cap)) (uncharged attachments) Category.all
  have hdistinct : Category.all.Nodup := by decide
  have hused := serveAll_used budget (Ledger.new (some cap)) (uncharged attachments) hdistinct
  rw [charged, pick_of_keys hkeys, totalBytes_shipped]
  simpa [Ledger.new] using hused

/-- Under the largest word as its cap, an allocation charges what the count caps let through. -/
theorem charged_of_largest {attachments : List Attachment} {budget : Budget} {cap : UInt64}
    (hcap : budget.byteCap = some cap) (hlargest : cap.toNat = Ledger.largest) {a : Allocation}
    (ha : Allocation.of attachments .all budget = .ok a) :
    totalBytes (a.charged attachments) = totalBytes (budget.countedFirst attachments) := by
  rw [of_byteCap attachments hcap, Except.ok.injEq] at ha
  subst ha
  have hkeys := serveAll_keys budget (Ledger.new (some cap)) (uncharged attachments) Category.all
  have hshipped : ∀ c ∈ Category.all,
      shippedTo c
        (serveAll budget (Ledger.new (some cap)) (uncharged attachments) Category.all).1 =
      Walk.upTo ((budget.countCap c).map UInt32.toNat)
        (attachments.filter fun a => a.category == c && !a.isRemote) := by
    intro c hc
    rw [← chargedTo_uncharged]
    refine shippedTo_serveAll_of_bytes_fit budget ?_ _ (by decide) hc
    intro l hl n
    exact Ledger.fits_of_capacity_max hl hlargest
  rw [charged, pick_of_keys hkeys, totalBytes_shipped, Budget.countedFirst, List.flatMap_def,
    List.flatMap_def, List.map_congr_left hshipped]

/-- **When the byte cap is kept.**  An allocation under a byte cap and no explicit selection
succeeds.  It keeps the cap exactly if the cap is below the largest word, or if all that the count
caps let through fits a word. -/
theorem keepsCap_iff (attachments : List Attachment) {budget : Budget} {cap : UInt64}
    (hcap : budget.byteCap = some cap) :
    ∃ a, Allocation.of attachments .all budget = .ok a ∧
      (a.KeepsCap attachments cap ↔
        cap.toNat < Ledger.largest ∨
          totalBytes (budget.countedFirst attachments) ≤ Ledger.largest) := by
  obtain ⟨a, ha⟩ : ∃ a, Allocation.of attachments .all budget = .ok a :=
    ⟨_, of_byteCap attachments hcap⟩
  refine ⟨a, ha, ?_⟩
  have hused := bytesUsed_eq hcap ha
  have hcapLe := Ledger.toNat_le_largest cap
  obtain ⟨hwithin, left, hleft, hrest⟩ : a.bytesUsed.toNat ≤ cap.toNat ∧
      ∃ left, a.bytesRemaining = some left ∧ left.toNat + a.bytesUsed.toNat = cap.toNat := by
    have hledger := serveAll_within budget (Ledger.within_new (some cap)) (uncharged attachments)
      Category.all
    have hcapacity := serveAll_capacity budget (Ledger.new (some cap)) (uncharged attachments)
      Category.all
    rw [of_byteCap attachments hcap, Except.ok.injEq] at ha
    subst ha
    exact ⟨hledger cap hcapacity, hledger.remaining hcapacity⟩
  have hkeeps : a.KeepsCap attachments cap ↔
      totalBytes (a.charged attachments) ≤ cap.toNat := by
    constructor
    · intro hk
      exact hk.charged_le
    · intro hle
      have hexact : a.bytesUsed.toNat = totalBytes (a.charged attachments) := by omega
      exact ⟨hle, hexact, left, hleft, by omega⟩
  rw [hkeeps]
  by_cases hlargest : cap.toNat = Ledger.largest
  · rw [← charged_of_largest hcap hlargest ha]
    omega
  · omega

/-- A picture of a given size that lies with the listing. -/
def picture (sizeBytes : UInt64) : Attachment :=
  ⟨none, some .bild, .intern, none, none, sizeBytes⟩

/-- Three pictures under a cap of a thousand bytes keep it. -/
theorem keepsCap_of_threePictures :
    (Budget.ofBytes (some 1000)).byteCap = some 1000 ∧
    ∃ a, Allocation.of [picture 600, picture 600, picture 100] .all (Budget.ofBytes (some 1000)) =
        .ok a ∧
      a.KeepsCap [picture 600, picture 600, picture 100] 1000 := by
  have hcap : (Budget.ofBytes (some 1000)).byteCap = some 1000 := rfl
  obtain ⟨a, ha, hiff⟩ := keepsCap_iff [picture 600, picture 600, picture 100] hcap
  exact ⟨hcap, a, ha, hiff.mpr (Or.inl (by decide))⟩

/-- Under the largest word as its cap, an allocation ships a picture of the largest word and one
byte more: the total saturates at the cap and never passes it. -/
theorem twoPictures_pass_largest_cap :
    ∃ a, Allocation.of [picture 18446744073709551615, picture 1] .all
        (Budget.ofBytes (some 18446744073709551615)) = .ok a ∧
      totalBytes (a.charged [picture 18446744073709551615, picture 1]) = 18446744073709551616 ∧
      ¬ a.KeepsCap [picture 18446744073709551615, picture 1] 18446744073709551615 := by
  refine ⟨⟨[⟨0, .picture, .admitted⟩, ⟨1, .picture, .admitted⟩], 18446744073709551615, some 0⟩,
    rfl, by decide, ?_⟩
  intro hkeeps
  exact absurd hkeeps.charged_le (by decide)

end Allocation

end ListingQuery
