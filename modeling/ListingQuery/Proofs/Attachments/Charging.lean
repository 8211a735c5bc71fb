import ListingQuery.Attachments.Allocation
import ListingQuery.Proofs.Attachments.Ledger

/-!
# What categories are charged

An allocation serves the categories one after the other over one table of attachments and
decisions.  This file separates the two things that happen there: a walk over the attachments that
are charged to one category, which no longer knows of the table, and the table, in which a walk
changes nothing but the verdicts of its own category.

* `serve_walk` and `shippedTo_serve` tie the table to the walk;
* `filter_serveAll` is what serving leaves alone: the rows of other categories and the rows of
  attachments that lie with somebody else;
* `Walk.after_used` says that the bytes after a walk are the bytes before it and the exact sizes of
  what it admits, cut at the largest word;
* `Walk.admitted_of_bytes_fit` says that a walk that no byte cap stops admits as many attachments
  as its count cap allows;
* `serveAll_used` adds the categories up.
-/

namespace ListingQuery.Allocation

/-! ## Walks -/

namespace Walk

/-- The walk behind the attachments of its category. -/
def after (w : Walk) (as : List Attachment) : Walk :=
  as.foldl (fun w a => (w.next a).2) w

/-- The attachments that the walk admits. -/
def admitted (w : Walk) : List Attachment → List Attachment
  | [] => []
  | a :: as =>
    if (w.next a).1 = .admitted then a :: admitted (w.next a).2 as
    else admitted (w.next a).2 as

/-- What a step of the walk can be: the category is closed, or it closes here for the count or for
the bytes, or the attachment is admitted and charged. -/
theorem next_cases (w : Walk) (a : Attachment) :
    (w.closed = true ∧ w.next a = (.categoryClosed, w)) ∨
    (w.closed = false ∧ w.count.fits 1 = false ∧
      w.next a = (.countCapReached, { w with closed := true })) ∨
    (w.closed = false ∧ w.count.fits 1 = true ∧ w.bytes.fits a.sizeBytes = false ∧
      w.next a = (.byteCapReached, { w with closed := true })) ∨
    (w.closed = false ∧ w.count.fits 1 = true ∧ w.bytes.fits a.sizeBytes = true ∧
      w.next a = (.admitted,
        { w with bytes := w.bytes.acquire a.sizeBytes, count := w.count.acquire 1 })) := by
  cases hclosed : w.closed with
  | true => exact Or.inl ⟨rfl, by simp [next, hclosed]⟩
  | false =>
      cases hcount : w.count.fits 1 with
      | false => exact Or.inr (Or.inl ⟨rfl, rfl, by simp [next, hclosed, hcount]⟩)
      | true =>
          cases hbytes : w.bytes.fits a.sizeBytes with
          | false =>
              exact Or.inr (Or.inr (Or.inl
                ⟨rfl, rfl, rfl, by simp [next, hclosed, hcount, hbytes]⟩))
          | true =>
              exact Or.inr (Or.inr (Or.inr
                ⟨rfl, rfl, rfl, by simp [next, hclosed, hcount, hbytes]⟩))

/-- A step either admits, and charges the ledger of bytes, or leaves that ledger alone. -/
theorem next_bytes (w : Walk) (a : Attachment) :
    ((w.next a).1 = .admitted ∧ w.bytes.fits a.sizeBytes = true ∧
      (w.next a).2.bytes = w.bytes.acquire a.sizeBytes) ∨
    ((w.next a).1 ≠ .admitted ∧ (w.next a).2.bytes = w.bytes) := by
  rcases w.next_cases a with ⟨_, hnext⟩ | ⟨_, _, hnext⟩ | ⟨_, _, _, hnext⟩ | ⟨_, _, hfits, hnext⟩
  · exact Or.inr (by simp [hnext])
  · exact Or.inr (by simp [hnext])
  · exact Or.inr (by simp [hnext])
  · exact Or.inl (by simp [hnext, hfits])

/-- The verdict of a walk ships exactly what the walk admits. -/
theorem next_ships (w : Walk) (a : Attachment) :
    (w.next a).1.ships = true ↔ (w.next a).1 = .admitted := by
  rcases w.next_cases a with ⟨_, hnext⟩ | ⟨_, _, hnext⟩ | ⟨_, _, _, hnext⟩ | ⟨_, _, _, hnext⟩ <;>
    simp [hnext, Verdict.ships]

@[simp] theorem after_nil (w : Walk) : w.after [] = w := rfl

@[simp] theorem after_cons (w : Walk) (a : Attachment) (as : List Attachment) :
    w.after (a :: as) = (w.next a).2.after as := rfl

/-- A walk keeps the capacity of its ledger of bytes. -/
theorem after_capacity (w : Walk) (as : List Attachment) :
    (w.after as).bytes.capacity = w.bytes.capacity := by
  induction as generalizing w with
  | nil => rfl
  | cons a as ih =>
      rw [after_cons, ih]
      rcases w.next_bytes a with ⟨_, _, hbytes⟩ | ⟨_, hbytes⟩
      · rw [hbytes, Ledger.acquire_capacity]
      · rw [hbytes]

/-- A walk keeps the bytes within their cap. -/
theorem after_within {w : Walk} (hwithin : w.bytes.Within) (as : List Attachment) :
    (w.after as).bytes.Within := by
  induction as generalizing w with
  | nil => exact hwithin
  | cons a as ih =>
      rw [after_cons]
      apply ih
      rcases w.next_bytes a with ⟨_, _, hbytes⟩ | ⟨_, hbytes⟩
      · rw [hbytes]
        exact hwithin.acquire a.sizeBytes
      · rw [hbytes]
        exact hwithin

end Walk

/-- The exact sum of the sizes of attachments. -/
def totalBytes : List Attachment → Nat
  | [] => 0
  | a :: as => a.sizeBytes.toNat + totalBytes as

@[simp] theorem totalBytes_nil : totalBytes [] = 0 := rfl

@[simp] theorem totalBytes_cons (a : Attachment) (as : List Attachment) :
    totalBytes (a :: as) = a.sizeBytes.toNat + totalBytes as := rfl

/-- The bytes of two lists are added. -/
@[simp] theorem totalBytes_append (as bs : List Attachment) :
    totalBytes (as ++ bs) = totalBytes as + totalBytes bs := by
  induction as with
  | nil => simp
  | cons a as ih =>
      rw [List.cons_append, totalBytes_cons, totalBytes_cons, ih]
      omega

namespace Walk

/-- The bytes behind a walk are those before it and the exact sizes of what it admits, cut at the
largest word. -/
theorem after_used (w : Walk) (as : List Attachment) :
    (w.after as).bytes.used.toNat =
      min Ledger.largest (w.bytes.used.toNat + totalBytes (w.admitted as)) := by
  induction as generalizing w with
  | nil =>
      have hle := Ledger.toNat_le_largest w.bytes.used
      simp only [after_nil, admitted, totalBytes_nil]
      omega
  | cons a as ih =>
      rw [after_cons, ih, admitted]
      rcases w.next_bytes a with ⟨hadmitted, hfits, hbytes⟩ | ⟨hrefused, hbytes⟩
      · rw [if_pos hadmitted, hbytes, Ledger.acquire_used_of_fits hfits, totalBytes_cons]
        omega
      · rw [if_neg hrefused, hbytes]

/-- How many more attachments the count cap lets the walk admit, if there is a cap. -/
def room (w : Walk) : Option Nat :=
  w.count.capacity.map fun cap => cap.toNat - w.count.used.toNat

/-- The first attachments, as many as there is room for. -/
def upTo (room : Option Nat) (as : List Attachment) : List Attachment :=
  match room with
  | none => as
  | some n => as.take n

/-- A category that is closed admits nothing more. -/
theorem admitted_of_closed {w : Walk} (hclosed : w.closed = true) (as : List Attachment) :
    w.admitted as = [] := by
  induction as with
  | nil => rfl
  | cons a as ih =>
      have hnext : w.next a = (.categoryClosed, w) := by simp [next, hclosed]
      simp [admitted, hnext, ih]

/-- A walk that no byte cap stops admits the first attachments of its category, as many as its
count cap has room for. -/
theorem admitted_of_bytes_fit {w : Walk} {as : List Attachment}
    (hbytes : ∀ l : Ledger, l.capacity = w.bytes.capacity → ∀ a ∈ as, l.fits a.sizeBytes = true)
    (hopen : w.closed = false)
    (hcap : ∀ cap, w.count.capacity = some cap → cap.toNat < Ledger.largest) :
    w.admitted as = upTo w.room as := by
  induction as generalizing w with
  | nil => cases hroom : w.room <;> simp [admitted, upTo]
  | cons a as ih =>
      have hfits : w.bytes.fits a.sizeBytes = true := hbytes w.bytes rfl a List.mem_cons_self
      cases hcount : w.count.fits 1 with
      | false =>
          have hnext : w.next a = (.countCapReached, { w with closed := true }) := by
            simp [next, hopen, hcount]
          cases hlimit : w.count.capacity with
          | none => simp [Ledger.fits_of_capacity_none hlimit] at hcount
          | some cap =>
              have hfull : ¬ w.count.used.toNat + (1 : UInt64).toNat ≤ cap.toNat := by
                rw [← Ledger.fits_iff hlimit (hcap cap hlimit), hcount]
                simp
              have hone : (1 : UInt64).toNat = 1 := rfl
              have hroom : w.room = some 0 := by
                simp only [room, hlimit, Option.map_some, Option.some.injEq]
                omega
              rw [hroom, admitted, hnext, if_neg (by simp), admitted_of_closed rfl]
              rfl
      | true =>
          have hnext : w.next a = (.admitted,
              { w with bytes := w.bytes.acquire a.sizeBytes, count := w.count.acquire 1 }) := by
            simp [next, hopen, hcount, hfits]
          have hrest : (w.next a).2.admitted as = upTo (w.next a).2.room as := by
            rw [hnext]
            refine ih ?_ hopen (by simpa using hcap)
            intro l hl b hb
            exact hbytes l (by simpa using hl) b (List.mem_cons_of_mem _ hb)
          rw [admitted, hrest, hnext, if_pos rfl]
          cases hlimit : w.count.capacity with
          | none => simp [room, upTo, hlimit]
          | some cap =>
              have hle := (Ledger.fits_iff hlimit (hcap cap hlimit)).mp hcount
              have hone : (1 : UInt64).toNat = 1 := rfl
              have hlt := hcap cap hlimit
              have hused := Ledger.acquire_used_of_fits hcount
              have hroom : cap.toNat - w.count.used.toNat =
                  (cap.toNat - (w.count.acquire 1).used.toNat) + 1 := by
                omega
              simp [room, upTo, hlimit, hroom]

end Walk

/-! ## The table of decisions -/

/-- An attachment with the decision on it. -/
abbrev Row := Attachment × Decision

/-- Is the attachment of the row charged to the category? -/
def charges (c : Category) (r : Row) : Bool :=
  r.2.category == c && !r.1.isRemote

/-- The attachments of a table that are charged to a category. -/
def chargedTo (c : Category) (rows : List Row) : List Attachment :=
  (rows.filter (charges c)).map (·.1)

/-- The attachments of a table that are charged to a category and ship. -/
def shippedTo (c : Category) (rows : List Row) : List Attachment :=
  (rows.filter fun r => charges c r && r.2.verdict.ships).map (·.1)

/-- A row without its verdict. -/
def Row.key (r : Row) : Attachment × Nat × Category :=
  (r.1, r.2.index, r.2.category)

/-- A row is charged to the category of its decision, unless its attachment is remote. -/
theorem charges_iff {c : Category} {a : Attachment} {d : Decision} :
    charges c (a, d) = true ↔ d.category = c ∧ a.isRemote = false := by
  simp [charges]

/-- What is charged to a category, row by row. -/
theorem chargedTo_cons (c : Category) (r : Row) (rows : List Row) :
    chargedTo c (r :: rows) =
      if charges c r then r.1 :: chargedTo c rows else chargedTo c rows := by
  cases hcharges : charges c r <;> simp [chargedTo, hcharges]

/-- What ships of a category, row by row. -/
theorem shippedTo_cons (c : Category) (r : Row) (rows : List Row) :
    shippedTo c (r :: rows) =
      if charges c r && r.2.verdict.ships then r.1 :: shippedTo c rows
      else shippedTo c rows := by
  cases hships : charges c r && r.2.verdict.ships <;> simp [shippedTo, hships]

/-- What ships of a category is found among its rows. -/
theorem shippedTo_eq (c : Category) (rows : List Row) :
    shippedTo c rows = ((rows.filter (charges c)).filter (·.2.verdict.ships)).map (·.1) := by
  simp [shippedTo, List.filter_filter, Bool.and_comm]

/-- A row that is charged to the category takes the verdict of the walk. -/
theorem serve_cons_of_charges {c : Category} {a : Attachment} {d : Decision}
    (hcharges : charges c (a, d) = true) (w : Walk) (rows : List Row) :
    serve c w ((a, d) :: rows) =
      ((a, { d with verdict := (w.next a).1 }) :: (serve c (w.next a).2 rows).1,
        (serve c (w.next a).2 rows).2) := by
  simp [serve, charges_iff.mp hcharges]

/-- Any other row stays as it is, and so does the walk. -/
theorem serve_cons_of_not_charges {c : Category} {r : Row}
    (hother : charges c r = false) (w : Walk) (rows : List Row) :
    serve c w (r :: rows) = (r :: (serve c w rows).1, (serve c w rows).2) := by
  obtain ⟨a, d⟩ := r
  have hnot : ¬ (d.category = c ∧ a.isRemote = false) := by
    rw [← charges_iff, hother]
    simp
  simp [serve, hnot]

/-- The walk of a category sees the attachments charged to it, in the order of the table. -/
theorem serve_walk (c : Category) (w : Walk) (rows : List Row) :
    (serve c w rows).2 = w.after (chargedTo c rows) := by
  induction rows generalizing w with
  | nil => rfl
  | cons r rows ih =>
      cases hcharges : charges c r with
      | true =>
          rw [serve_cons_of_charges (a := r.1) (d := r.2) hcharges, chargedTo_cons, hcharges]
          exact ih (w.next r.1).2
      | false =>
          rw [serve_cons_of_not_charges hcharges, chargedTo_cons, hcharges]
          exact ih w

/-- What ships of the served category is what its walk admits. -/
theorem shippedTo_serve (c : Category) (w : Walk) (rows : List Row) :
    shippedTo c (serve c w rows).1 = w.admitted (chargedTo c rows) := by
  induction rows generalizing w with
  | nil => rfl
  | cons r rows ih =>
      obtain ⟨a, d⟩ := r
      cases hcharges : charges c (a, d) with
      | true =>
          have hkept : charges c (a, { d with verdict := (w.next a).1 }) = true := hcharges
          rw [serve_cons_of_charges hcharges, shippedTo_cons, chargedTo_cons, hkept, hcharges, ih]
          simp [Walk.admitted, w.next_ships a]
      | false =>
          rw [serve_cons_of_not_charges hcharges, shippedTo_cons, chargedTo_cons, hcharges]
          exact ih w

/-- Serving a category leaves the rows alone that are not charged to it. -/
theorem filter_serve {c : Category} (keep : Attachment × Nat × Category → Bool)
    (hkeep : ∀ r : Row, keep (Row.key r) = true → charges c r = false) (w : Walk) (rows : List Row) :
    (serve c w rows).1.filter (keep ∘ Row.key) = rows.filter (keep ∘ Row.key) := by
  induction rows generalizing w with
  | nil => rfl
  | cons r rows ih =>
      obtain ⟨a, d⟩ := r
      cases hcharges : charges c (a, d) with
      | true =>
          have hdropped : ∀ v : Verdict, keep (Row.key (a, { d with verdict := v })) = false := by
            intro v
            cases hkept : keep (Row.key (a, { d with verdict := v })) with
            | false => rfl
            | true => exact absurd hcharges (by simp [hkeep (a, d) hkept])
          rw [serve_cons_of_charges hcharges, List.filter_cons_of_neg (by simp [hdropped]),
            List.filter_cons_of_neg (by simpa using hdropped d.verdict), ih]
      | false =>
          rw [serve_cons_of_not_charges hcharges, List.filter_cons, List.filter_cons, ih]

/-- Serving a category changes verdicts and nothing else. -/
theorem serve_keys (c : Category) (w : Walk) (rows : List Row) :
    (serve c w rows).1.map Row.key = rows.map Row.key := by
  induction rows generalizing w with
  | nil => rfl
  | cons r rows ih =>
      cases hcharges : charges c r with
      | true =>
          rw [serve_cons_of_charges (a := r.1) (d := r.2) hcharges]
          simp [Row.key, ih]
      | false =>
          rw [serve_cons_of_not_charges hcharges]
          simp [ih]

/-- Which attachments a table charges to a category is seen without the verdicts. -/
theorem chargedTo_congr {rows rows' : List Row} (c : Category)
    (hkeys : rows'.map Row.key = rows.map Row.key) :
    chargedTo c rows' = chargedTo c rows := by
  have hcharged : ∀ rows : List Row, chargedTo c rows =
      ((rows.map Row.key).filter fun k => k.2.2 == c && !k.1.isRemote).map (·.1) := by
    intro rows
    simp [chargedTo, List.filter_map, List.map_map, Function.comp_def, Row.key]
    rfl
  rw [hcharged, hcharged, hkeys]

/-! ## All categories -/

/-- The walk over a category at its beginning. -/
def Walk.start (budget : Budget) (c : Category) (bytes : Ledger) : Walk :=
  ⟨bytes, Ledger.new ((budget.countCap c).map UInt32.toUInt64), false⟩

variable (budget : Budget)

/-- The first category is served, and then the others from what it leaves. -/
theorem serveAll_cons (bytes : Ledger) (rows : List Row) (c : Category) (cs : List Category) :
    serveAll budget bytes rows (c :: cs) =
      serveAll budget (serve c (Walk.start budget c bytes) rows).2.bytes
        (serve c (Walk.start budget c bytes) rows).1 cs := rfl

/-- To serve categories changes verdicts only. -/
theorem serveAll_keys (bytes : Ledger) (rows : List Row) (cs : List Category) :
    (serveAll budget bytes rows cs).1.map Row.key = rows.map Row.key := by
  induction cs generalizing bytes rows with
  | nil => rfl
  | cons c cs ih => rw [serveAll_cons, ih, serve_keys]

/-- Serving categories leaves the rows alone that are not charged to any of them. -/
theorem filter_serveAll {cs : List Category} (keep : Attachment × Nat × Category → Bool)
    (hkeep : ∀ c ∈ cs, ∀ r : Row, keep (Row.key r) = true → charges c r = false) (bytes : Ledger)
    (rows : List Row) :
    (serveAll budget bytes rows cs).1.filter (keep ∘ Row.key) =
      rows.filter (keep ∘ Row.key) := by
  induction cs generalizing bytes rows with
  | nil => rfl
  | cons c cs ih =>
      obtain ⟨hc, hcs⟩ := List.forall_mem_cons.mp hkeep
      rw [serveAll_cons, ih hcs, filter_serve keep hc]

/-- A category that is not served keeps its rows. -/
theorem filter_charges_serveAll {c : Category} {cs : List Category} (hc : c ∉ cs)
    (bytes : Ledger) (rows : List Row) :
    (serveAll budget bytes rows cs).1.filter (charges c) = rows.filter (charges c) := by
  refine filter_serveAll budget (fun k => k.2.2 == c && !k.1.isRemote) ?_ bytes rows
  intro c' hc' r hkept
  have hcategory : r.2.category = c := (charges_iff.mp hkept).1
  have hne : c ≠ c' := fun heq => hc (heq ▸ hc')
  simp [charges, hcategory, hne]

/-- A category that is not served ships what it shipped before. -/
theorem shippedTo_serveAll_of_not_mem {c : Category} {cs : List Category} (hc : c ∉ cs)
    (bytes : Ledger) (rows : List Row) :
    shippedTo c (serveAll budget bytes rows cs).1 = shippedTo c rows := by
  rw [shippedTo_eq, shippedTo_eq, filter_charges_serveAll budget hc]

/-- To serve categories keeps the capacity of the ledger of bytes. -/
theorem serveAll_capacity (bytes : Ledger) (rows : List Row) (cs : List Category) :
    (serveAll budget bytes rows cs).2.capacity = bytes.capacity := by
  induction cs generalizing bytes rows with
  | nil => rfl
  | cons c cs ih =>
      rw [serveAll_cons, ih, serve_walk, Walk.after_capacity]
      rfl

/-- To serve categories keeps the ledger of bytes within its capacity. -/
theorem serveAll_within {bytes : Ledger} (hwithin : bytes.Within) (rows : List Row)
    (cs : List Category) : (serveAll budget bytes rows cs).2.Within := by
  induction cs generalizing bytes rows with
  | nil => exact hwithin
  | cons c cs ih =>
      rw [serveAll_cons]
      apply ih
      rw [serve_walk]
      exact Walk.after_within (w := Walk.start budget c bytes) hwithin _

/-- The bytes behind the categories are those before them and the exact sizes of what ships of
each, cut at the largest word. -/
theorem serveAll_used (bytes : Ledger) (rows : List Row) {cs : List Category} (hcs : cs.Nodup) :
    (serveAll budget bytes rows cs).2.used.toNat =
      min Ledger.largest (bytes.used.toNat +
        totalBytes (cs.flatMap fun c => shippedTo c (serveAll budget bytes rows cs).1)) := by
  induction cs generalizing bytes rows with
  | nil =>
      have hle := Ledger.toNat_le_largest bytes.used
      simp only [serveAll, List.flatMap_nil, totalBytes_nil]
      omega
  | cons c cs ih =>
      obtain ⟨hc, hrest⟩ := List.nodup_cons.mp hcs
      have hshipped := shippedTo_serveAll_of_not_mem budget hc
        (serve c (Walk.start budget c bytes) rows).2.bytes
        (serve c (Walk.start budget c bytes) rows).1
      rw [serveAll_cons, ih _ _ hrest, List.flatMap_cons, totalBytes_append, hshipped,
        shippedTo_serve]
      rw [serve_walk, Walk.after_used]
      simp only [Walk.start]
      omega

/-- Where no byte cap stops a walk, every category ships its first attachments, as many as its
count cap allows. -/
theorem shippedTo_serveAll_of_bytes_fit {bytes : Ledger}
    (hbytes : ∀ l : Ledger, l.capacity = bytes.capacity → ∀ n, l.fits n = true)
    (rows : List Row) {cs : List Category} (hcs : cs.Nodup) {c : Category} (hc : c ∈ cs) :
    shippedTo c (serveAll budget bytes rows cs).1 =
      Walk.upTo ((budget.countCap c).map UInt32.toNat) (chargedTo c rows) := by
  induction cs generalizing bytes rows with
  | nil => cases hc
  | cons c' cs ih =>
      obtain ⟨hc', hrest⟩ := List.nodup_cons.mp hcs
      rw [serveAll_cons]
      rcases List.mem_cons.mp hc with rfl | hmem
      · rw [shippedTo_serveAll_of_not_mem budget hc', shippedTo_serve,
          Walk.admitted_of_bytes_fit (fun l hl a _ => hbytes l hl _) rfl]
        · simp [Walk.room, Walk.start, Ledger.new, Function.comp_def]
        · intro cap hcap
          obtain ⟨n, _, rfl⟩ := Option.map_eq_some_iff.mp hcap
          have hlt := n.toNat_lt
          simp only [UInt32.toNat_toUInt64, Ledger.largest, UInt64.size]
          omega
      · rw [ih _ _ hrest hmem, chargedTo_congr c (serve_keys c' _ rows)]
        intro l hl
        apply hbytes
        rw [hl, serve_walk, Walk.after_capacity]
        rfl

end ListingQuery.Allocation
