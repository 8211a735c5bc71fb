import ListingQuery.Proofs.Attachments.Interleaving

/-!
# Larger byte caps

With a larger byte cap an allocation can ship other attachments, since a picture that fits now may
leave no room for a document.  But it never charges fewer bytes.  Two runs with the same count caps
take the same decisions up to the first attachment that only the larger cap lets through, and that
attachment alone brings the second run beyond the smaller cap, which the first one never passes.

* `AtMost` orders byte caps; `Ledger.Tighter` are ledgers that have charged the same, one of them
  under a cap that is at most that of the other;
* `Walk.next_tighter` is one step of two such walks, `serve_tighter` a category and
  `serveAll_tighter` all categories: the two runs go on alike, or the second has passed the cap of
  the first;
* `larger_cap_charges_no_less` is the result for allocations.
-/

namespace ListingQuery

/-- A byte cap is at most another one; no cap at all is larger than every cap. -/
def AtMost (small large : Option UInt64) : Prop :=
  ∀ n, large = some n → ∃ m, small = some m ∧ m ≤ n

/-- An amount is beyond a cap; nothing is beyond no cap. -/
def Beyond (amount : UInt64) (cap : Option UInt64) : Prop :=
  ∃ n, cap = some n ∧ n < amount

/-- What is more than an amount beyond a cap is beyond it as well. -/
theorem Beyond.mono {m n : UInt64} {cap : Option UInt64} (h : Beyond m cap) (hle : m ≤ n) :
    Beyond n cap := by
  obtain ⟨c, hcap, hlt⟩ := h
  exact ⟨c, hcap, UInt64.lt_of_lt_of_le hlt hle⟩

namespace Ledger

/-- The ledgers have charged the same, and the capacity of the first is at most that of the
second. -/
structure Tighter (l m : Ledger) : Prop where
  used : l.used = m.used
  capacity : AtMost l.capacity m.capacity

/-- A request does not lower the total. -/
theorem used_le_acquire (l : Ledger) (amount : UInt64) : l.used ≤ (l.acquire amount).used := by
  by_cases hfits : l.fits amount = true
  · rw [UInt64.le_iff_toNat_le, acquire_used_of_fits hfits]
    have hle := toNat_le_largest l.used
    omega
  · simp [acquire, hfits]

section Requests

variable {l m : Ledger} {amount : UInt64}

/-- What fits into the tighter ledger fits into the other one. -/
theorem Tighter.fits (h : l.Tighter m) (hfits : l.fits amount = true) : m.fits amount = true := by
  cases hlarge : m.capacity with
  | none => exact fits_of_capacity_none hlarge
  | some n =>
      obtain ⟨c, hsmall, hle⟩ := h.capacity n hlarge
      have hwithin := (fits_iff_min_le hsmall).mp hfits
      rw [fits_iff_min_le hlarge, ← h.used]
      exact Nat.le_trans hwithin (UInt64.le_iff_toNat_le.mp hle)

/-- A request that both ledgers grant leaves one of them tighter than the other. -/
theorem Tighter.acquire (h : l.Tighter m) (hfits : l.fits amount = true) :
    (l.acquire amount).Tighter (m.acquire amount) := by
  constructor
  · simp only [Ledger.acquire, hfits, h.fits hfits, if_true, h.used]
  · rw [acquire_capacity, acquire_capacity]
    exact h.capacity

/-- What fits into the other ledger alone brings it beyond the capacity of the tighter one. -/
theorem Tighter.beyond (h : l.Tighter m) (hrefused : l.fits amount = false)
    (hfits : m.fits amount = true) : Beyond (m.acquire amount).used l.capacity := by
  cases hsmall : l.capacity with
  | none => simp [fits_of_capacity_none hsmall] at hrefused
  | some c =>
      refine ⟨c, rfl, ?_⟩
      rw [UInt64.lt_iff_toNat_lt, acquire_used_of_fits hfits, ← h.used, ← Nat.not_le,
        ← fits_iff_min_le hsmall, hrefused]
      simp

/-- A ledger within its capacity has charged less than one that is beyond it. -/
theorem Within.used_le (hwithin : l.Within) (hbeyond : Beyond m.used l.capacity) :
    l.used ≤ m.used := by
  obtain ⟨c, hcap, hlt⟩ := hbeyond
  have hle : l.used ≤ c := UInt64.le_iff_toNat_le.mpr (hwithin c hcap)
  exact UInt64.le_of_lt (UInt64.lt_of_le_of_lt hle hlt)

end Requests

end Ledger

namespace Allocation

/-! ## One category -/

namespace Walk

/-- The walks stand alike, but for the capacity of their bytes. -/
structure Tighter (w v : Walk) : Prop where
  bytes : w.bytes.Tighter v.bytes
  count : w.count = v.count
  closed : w.closed = v.closed

/-- **A step of two walks.**  They take the same verdict and go on alike, or the second passes the
byte cap of the first. -/
theorem next_tighter {w v : Walk} (h : w.Tighter v) (a : Attachment) :
    ((w.next a).1 = (v.next a).1 ∧ (w.next a).2.Tighter (v.next a).2) ∨
      Beyond (v.next a).2.bytes.used w.bytes.capacity := by
  obtain ⟨hbytes, hcount, hclosed⟩ := h
  rcases w.next_cases a with ⟨hshut, hnext⟩ | ⟨hopen, hfull, hnext⟩ |
    ⟨hopen, hroom, hrefused, hnext⟩ | ⟨hopen, hroom, hfits, hnext⟩
  · have hnext' : v.next a = (.categoryClosed, v) := by simp [next, ← hclosed, hshut]
    rw [hnext, hnext']
    exact Or.inl ⟨rfl, hbytes, hcount, hclosed⟩
  · have hnext' : v.next a = (.countCapReached, { v with closed := true }) := by
      simp [next, ← hclosed, hopen, ← hcount, hfull]
    rw [hnext, hnext']
    exact Or.inl ⟨rfl, hbytes, hcount, rfl⟩
  · by_cases hfits : v.bytes.fits a.sizeBytes = true
    · -- the first attachment that only the larger cap lets through
      have hnext' : v.next a = (.admitted, { v with
          bytes := v.bytes.acquire a.sizeBytes, count := v.count.acquire 1 }) := by
        simp [next, ← hclosed, hopen, ← hcount, hroom, hfits]
      rw [hnext']
      exact Or.inr (hbytes.beyond hrefused hfits)
    · have hnext' : v.next a = (.byteCapReached, { v with closed := true }) := by
        simp [next, ← hclosed, hopen, ← hcount, hroom, hfits]
      rw [hnext, hnext']
      exact Or.inl ⟨rfl, hbytes, hcount, rfl⟩
  · have hnext' : v.next a = (.admitted, { v with
        bytes := v.bytes.acquire a.sizeBytes, count := v.count.acquire 1 }) := by
      simp [next, ← hclosed, hopen, ← hcount, hroom, hbytes.fits hfits]
    rw [hnext, hnext']
    exact Or.inl ⟨rfl, hbytes.acquire hfits, congrArg (·.acquire 1) hcount, hclosed⟩

/-- A step keeps the capacity of the ledger of bytes. -/
theorem next_capacity (w : Walk) (a : Attachment) :
    (w.next a).2.bytes.capacity = w.bytes.capacity :=
  w.after_capacity [a]

/-- A walk never gives bytes back. -/
theorem used_le_after (w : Walk) (as : List Attachment) :
    w.bytes.used ≤ (w.after as).bytes.used := by
  induction as generalizing w with
  | nil => exact UInt64.le_refl _
  | cons a as ih =>
      have hrest := ih (w.next a).2
      apply UInt64.le_trans ?_ hrest
      rcases w.next_bytes a with ⟨_, _, hbytes⟩ | ⟨_, hbytes⟩
      · rw [hbytes]
        exact w.bytes.used_le_acquire a.sizeBytes
      · rw [hbytes]
        exact UInt64.le_refl _

end Walk

/-- Two walks over the table of a category decide alike, or the second passes the byte cap of the
first. -/
theorem serve_tighter (c : Category) {w v : Walk} (h : w.Tighter v) (rows : List Row) :
    ((serve c w rows).1 = (serve c v rows).1 ∧ (serve c w rows).2.Tighter (serve c v rows).2) ∨
      Beyond (serve c v rows).2.bytes.used w.bytes.capacity := by
  induction rows generalizing w v with
  | nil => exact Or.inl ⟨rfl, h⟩
  | cons r rows ih =>
      obtain ⟨a, d⟩ := r
      by_cases hcharges : charges c (a, d) = true
      · rw [serve_cons_of_charges hcharges, serve_cons_of_charges hcharges]
        rcases Walk.next_tighter h a with ⟨hverdict, hnext⟩ | hbeyond
        · have hrest := ih hnext
          rw [w.next_capacity] at hrest
          rcases hrest with ⟨hrows, hwalks⟩ | hbeyond
          · left
            simp only [hverdict, hrows, true_and]
            exact hwalks
          · exact Or.inr hbeyond
        · right
          apply hbeyond.mono
          rw [serve_walk]
          exact Walk.used_le_after _ _
      · have hother : charges c (a, d) = false := by simpa using hcharges
        rw [serve_cons_of_not_charges hother, serve_cons_of_not_charges hother]
        rcases ih h with ⟨hrows, hwalks⟩ | hbeyond
        · left
          simp only [hrows, true_and]
          exact hwalks
        · exact Or.inr hbeyond

/-! ## All categories -/

/-- To serve categories does not lower the total. -/
theorem used_le_serveAll (budget : Budget) (bytes : Ledger) (rows : List Row)
    (cs : List Category) : bytes.used ≤ (serveAll budget bytes rows cs).2.used := by
  induction cs generalizing bytes rows with
  | nil => exact UInt64.le_refl _
  | cons c cs ih =>
      rw [serveAll_cons]
      apply UInt64.le_trans ?_ (ih _ _)
      rw [serve_walk]
      exact Walk.used_le_after (Walk.start budget c bytes) _

/-- The same holds for categories that are served one after the other. -/
theorem serveAll_tighter {small large : Budget}
    (hcounts : ∀ c, small.countCap c = large.countCap c) {bytes bytes' : Ledger}
    (h : bytes.Tighter bytes') (rows : List Row) (cs : List Category) :
    ((serveAll small bytes rows cs).1 = (serveAll large bytes' rows cs).1 ∧
        (serveAll small bytes rows cs).2.Tighter (serveAll large bytes' rows cs).2) ∨
      Beyond (serveAll large bytes' rows cs).2.used bytes.capacity := by
  induction cs generalizing bytes bytes' rows with
  | nil => exact Or.inl ⟨rfl, h⟩
  | cons c cs ih =>
      have hstart : (Walk.start small c bytes).Tighter (Walk.start large c bytes') := by
        refine ⟨h, ?_, rfl⟩
        simp only [Walk.start, hcounts c]
      rw [serveAll_cons, serveAll_cons]
      rcases serve_tighter c hstart rows with ⟨hrows, hwalks⟩ | hbeyond
      · have hrest := ih hwalks.bytes (serve c (Walk.start large c bytes') rows).1
        rw [← hrows, serve_walk, Walk.after_capacity] at hrest
        rw [← hrows, serve_walk]
        exact hrest
      · right
        exact hbeyond.mono (used_le_serveAll large _ _ cs)

/-- **A larger byte cap charges no less.**  Under the same count caps and a byte cap that is at least
as large, both allocations are made, the second charges at least the bytes of the first, and the two
take the same decisions or the second charges more than the byte cap of the first. -/
theorem larger_cap_charges_no_less {small large : Budget}
    (hcounts : ∀ c, small.countCap c = large.countCap c)
    (hcaps : AtMost small.byteCap large.byteCap) (hsmall : small.isLimited = true)
    (hlarge : large.isLimited = true) (attachments : List Attachment) :
    ∃ a b, Allocation.of attachments .all small = .ok a ∧
      Allocation.of attachments .all large = .ok b ∧ a.bytesUsed ≤ b.bytesUsed ∧
      (a.decisions = b.decisions ∨ ∃ cap, small.byteCap = some cap ∧ cap < b.bytesUsed) := by
  obtain ⟨a, ha⟩ : ∃ a, Allocation.of attachments .all small = .ok a :=
    exists_of (Or.inr hsmall) attachments
  obtain ⟨b, hb⟩ : ∃ b, Allocation.of attachments .all large = .ok b :=
    exists_of (Or.inr hlarge) attachments
  have hbytes : (Ledger.new small.byteCap).Tighter (Ledger.new large.byteCap) := ⟨rfl, hcaps⟩
  have hwithin := serveAll_within small (Ledger.within_new small.byteCap) (uncharged attachments)
    Category.all
  have hcapacity := serveAll_capacity small (Ledger.new small.byteCap) (uncharged attachments)
    Category.all
  refine ⟨a, b, ha, hb, ?_⟩
  rw [(of_all_eq_ok_iff.mp ha).2, (of_all_eq_ok_iff.mp hb).2]
  rcases serveAll_tighter hcounts hbytes (uncharged attachments) Category.all with
    ⟨hrows, hledgers⟩ | hbeyond
  · exact ⟨UInt64.le_of_eq hledgers.used, Or.inl (congrArg (List.map (·.2)) hrows)⟩
  · refine ⟨hwithin.used_le ?_, Or.inr hbeyond⟩
    rw [hcapacity]
    exact hbeyond

/-- Under a cap of 1000 bytes a picture is refused and the document uses the cap up; under a cap of
1100 the picture is admitted, and it leaves no room for the document. -/
theorem picture_crowds_out_document :
    (∀ c, (Budget.ofBytes (some 1000)).countCap c = (Budget.ofBytes (some 1100)).countCap c) ∧
    AtMost (some 1000) (some 1100) ∧ (Budget.ofBytes (some 1000)).isLimited = true ∧
    (Budget.ofBytes (some 1100)).isLimited = true ∧
    ∃ a b, Allocation.of picturesFirst .all (Budget.ofBytes (some 1000)) = .ok a ∧
      Allocation.of picturesFirst .all (Budget.ofBytes (some 1100)) = .ok b ∧
      a.shipped = [0, 2] ∧ b.shipped = [0, 1] ∧ a.bytesUsed ≤ b.bytesUsed ∧
      (a.decisions = b.decisions ∨ ∃ cap, some 1000 = some cap ∧ cap < b.bytesUsed) := by
  have hcounts : ∀ c, (Budget.ofBytes (some 1000)).countCap c =
      (Budget.ofBytes (some 1100)).countCap c := by
    intro c
    cases c <;> rfl
  have hcaps : AtMost (some 1000) (some 1100) := by
    intro n hn
    obtain rfl := Option.some.inj hn
    exact ⟨1000, rfl, by decide⟩
  obtain ⟨a, b, ha, hb, hused, hdecisions⟩ :=
    larger_cap_charges_no_less hcounts hcaps rfl rfl picturesFirst
  have hfirst : a = ⟨[⟨0, .picture, .admitted⟩, ⟨1, .picture, .byteCapReached⟩,
      ⟨2, .document, .admitted⟩], 1000, some 0⟩ := (Except.ok.inj ha).symm
  have hsecond : b = ⟨[⟨0, .picture, .admitted⟩, ⟨1, .picture, .admitted⟩,
      ⟨2, .document, .byteCapReached⟩], 1100, some 0⟩ := (Except.ok.inj hb).symm
  refine ⟨hcounts, hcaps, rfl, rfl, a, b, ha, hb, ?_, ?_, hused, hdecisions⟩
  · rw [hfirst]
    rfl
  · rw [hsecond]
    rfl

end Allocation

end ListingQuery
