import ListingQuery.Proofs.Attachments.Verdicts

/-!
# The greedy rule

Under a budget, a category admits the longest first part of its attachments that its count cap and,
together with what the categories before it were charged, the byte cap allow.  The attachment behind
that part is refused, for the count if the count cap is used up and else for the bytes, and closes the
category for all others.

* `Budget.Allows` says which attachments the caps allow, `Budget.AdmitsLongest` what the verdicts of
  one category have to be, and `FollowsRule` what a whole allocation has to be;
* `Walk.Exact.admitsLongest` is the rule for one walk, by induction over its attachments;
* `used_before` says that the ledger a category starts from is the exact sum of what was admitted
  before it, cut at the largest word;
* `allocation_follows_rule` is the result.
-/

namespace ListingQuery

namespace Budget

/-- The attachments are within the count cap of their category and, together with the bytes that other
categories were charged before, within the byte cap. -/
structure Allows (b : Budget) (c : Category) (before : Nat) (as : List Attachment) : Prop where
  count : ∀ cap, b.countCap c = some cap → as.length ≤ cap.toNat
  bytes : ∀ cap, b.byteCap = some cap → before + Allocation.totalBytes as ≤ cap.toNat

/-- Why an attachment is refused behind the admitted ones of its category. -/
def refusal (b : Budget) (c : Category) (admitted : Nat) : Verdict :=
  if (b.countCap c).map UInt32.toNat = some admitted then .countCapReached else .byteCapReached

/-- The verdicts behind the admitted attachments of a category: the first of them is refused and closes
the category for the others. -/
def closing (refusal : Verdict) : Nat → List Verdict
  | 0 => []
  | rest + 1 => refusal :: List.replicate rest .categoryClosed

/-- The first attachments of a category are admitted, the most that are allowed, and the category is
closed behind them. -/
structure AdmitsLongest (b : Budget) (c : Category) (before : Nat) (as : List Attachment)
    (verdicts : List Verdict) (admitted : Nat) : Prop where
  le_length : admitted ≤ as.length
  allows : b.Allows c before (as.take admitted)
  longest : ∀ n ≤ as.length, b.Allows c before (as.take n) → n ≤ admitted
  verdicts_eq : verdicts = List.replicate admitted .admitted ++
    closing (b.refusal c admitted) (as.length - admitted)

end Budget

namespace Allocation

/-! ## One walk -/

namespace Walk

/-- The attachments are within what the walk has left of its caps. -/
def Allows (w : Walk) (as : List Attachment) : Prop :=
  w.count.Allows as.length ∧ w.bytes.Allows (totalBytes as)

/-- Why an attachment is refused behind some that the walk admits. -/
def refusal (w : Walk) (admitted : Nat) : Verdict :=
  if w.count.capacity.map UInt64.toNat = some (w.count.used.toNat + admitted) then .countCapReached
  else .byteCapReached

/-- The category is open, and on its attachments the ledgers saturate only beyond their capacity. -/
structure Exact (w : Walk) (as : List Attachment) : Prop where
  isOpen : w.closed = false
  count : w.count.CountsExactly as.length
  bytes : w.bytes.CountsExactly (totalBytes as)

section Step

variable {w : Walk} {a : Attachment} {as : List Attachment} (h : w.Exact (a :: as))
include h

/-- A walk that is exact on a list is exact on its first attachment. -/
theorem Exact.head :
    w.count.CountsExactly (1 : UInt64).toNat ∧ w.bytes.CountsExactly a.sizeBytes.toNat :=
  ⟨h.count.mono (by simp), h.bytes.mono (by simp)⟩

/-- A walk that admits an attachment goes on with less room, and remains exact. -/
theorem Exact.admit (hcount : w.count.fits 1 = true) (hbytes : w.bytes.fits a.sizeBytes = true) :
    (w.next a).1 = .admitted ∧ (w.next a).2.Exact as ∧
      (∀ bs, (w.next a).2.Allows bs ↔ w.Allows (a :: bs)) ∧
      ∀ n, (w.next a).2.refusal n = w.refusal (n + 1) := by
  obtain ⟨hone, hsize⟩ := h.head
  have hnext : w.next a = (.admitted,
      { w with bytes := w.bytes.acquire a.sizeBytes, count := w.count.acquire 1 }) := by
    simp [next, h.isOpen, hcount, hbytes]
  rw [hnext]
  refine ⟨rfl, ⟨h.isOpen, ?_, h.bytes.acquire hbytes⟩, ?_, ?_⟩
  · exact Ledger.CountsExactly.acquire hcount (h.count.mono (by simp [Nat.add_comm]))
  · intro bs
    have hlength : (1 : UInt64).toNat + bs.length = (a :: bs).length := by simp [Nat.add_comm]
    rw [Allows, hone.allows_acquire_iff hcount, hsize.allows_acquire_iff hbytes, hlength]
    rfl
  · intro n
    cases hcap : w.count.capacity with
    | none => simp [refusal, hcap]
    | some cap =>
        have hused := hone.acquire_used hcount hcap
        have hshift : w.count.used.toNat + 1 + n = w.count.used.toNat + (n + 1) := by omega
        simp [refusal, hcap, hused, hshift]

/-- A walk that was within its caps refuses what it does not allow, and closes. -/
theorem Exact.refuse (hwithin : w.Allows []) (hnot : ¬ w.Allows [a]) :
    w.next a = (w.refusal 0, { w with closed := true }) := by
  obtain ⟨hone, hsize⟩ := h.head
  rcases w.next_cases a with ⟨hclosed, _⟩ | ⟨_, hcount, hnext⟩ | ⟨_, hcount, hbytes, hnext⟩ |
    ⟨_, hcount, hbytes, _⟩
  · rw [h.isOpen] at hclosed
    cases hclosed
  · have hfull : ¬ w.count.Allows 1 := fun hroom => by simp [hone.fits_iff.mpr hroom] at hcount
    rw [hnext, refusal, Nat.add_zero, if_pos ((Ledger.not_allows_one_iff hwithin.1).mp hfull)]
  · have hfree : w.count.Allows 1 := hone.fits_iff.mp hcount
    have hnotFull := fun hfull => (Ledger.not_allows_one_iff hwithin.1).mpr hfull hfree
    rw [hnext, refusal, Nat.add_zero, if_neg hnotFull]
  · exact absurd ⟨hone.fits_iff.mp hcount, hsize.fits_iff.mp hbytes⟩ hnot

end Step

/-- The first attachments of a walk are admitted, the most that it allows, and it is closed behind
them. -/
structure AdmitsLongest (w : Walk) (as : List Attachment) (admitted : Nat) : Prop where
  le_length : admitted ≤ as.length
  allows : w.Allows (as.take admitted)
  longest : ∀ n ≤ as.length, w.Allows (as.take n) → n ≤ admitted
  verdicts_eq : w.verdicts as = List.replicate admitted .admitted ++
    Budget.closing (w.refusal admitted) (as.length - admitted)

/-- Fewer attachments are within the caps if more are. -/
theorem Allows.head {w : Walk} {a : Attachment} {as : List Attachment} (h : w.Allows (a :: as)) :
    w.Allows [a] := by
  constructor
  · intro cap hcap
    have hle := h.1 cap hcap
    simp only [List.length_cons, List.length_nil] at hle ⊢
    omega
  · intro cap hcap
    have hle := h.2 cap hcap
    simp only [totalBytes_cons, totalBytes_nil] at hle ⊢
    omega

/-- **The greedy rule for one walk.** -/
theorem Exact.admitsLongest {w : Walk} {as : List Attachment} (h : w.Exact as)
    (hwithin : w.Allows []) : ∃ admitted, w.AdmitsLongest as admitted := by
  induction as generalizing w with
  | nil => exact ⟨0, Nat.le_refl 0, hwithin, fun n hn _ => hn, rfl⟩
  | cons a as ih =>
      by_cases hallows : w.Allows [a]
      · obtain ⟨hone, hsize⟩ := h.head
        obtain ⟨hadmitted, hexact, hroom, hrefusal⟩ :=
          h.admit (hone.fits_iff.mpr hallows.1) (hsize.fits_iff.mpr hallows.2)
        obtain ⟨n, hn⟩ := ih hexact ((hroom []).mpr hallows)
        refine ⟨n + 1, Nat.succ_le_succ hn.le_length, (hroom _).mp hn.allows, ?_, ?_⟩
        · intro m hm hlonger
          cases m with
          | zero => exact Nat.zero_le _
          | succ m =>
              exact Nat.succ_le_succ
                (hn.longest m (Nat.le_of_succ_le_succ hm) ((hroom _).mpr hlonger))
        · rw [verdicts_cons, hadmitted, hn.verdicts_eq, hrefusal, List.length_cons,
            Nat.add_sub_add_right]
          rfl
      · have hnext := h.refuse hwithin hallows
        refine ⟨0, Nat.zero_le _, hwithin, ?_, ?_⟩
        · intro m _ hlonger
          cases m with
          | zero => exact Nat.le_refl 0
          | succ m => exact absurd (Allows.head hlonger) hallows
        · rw [verdicts_cons, hnext, verdicts_of_closed rfl]
          rfl

section Start

variable {budget : Budget} {c : Category} {bytes : Ledger} {before : Nat}

/-- A walk starts with the caps of its category. -/
theorem allows_start_iff (hcap : bytes.capacity = budget.byteCap)
    (hbefore : ∀ cap, budget.byteCap = some cap → bytes.used.toNat = before)
    (as : List Attachment) :
    (start budget c bytes).Allows as ↔ budget.Allows c before as := by
  have hcount : (start budget c bytes).count.Allows as.length ↔
      ∀ cap, budget.countCap c = some cap → as.length ≤ cap.toNat := by
    cases hlimit : budget.countCap c <;> simp [start, Ledger.new, Ledger.Allows, hlimit]
  have hbytes : (start budget c bytes).bytes.Allows (totalBytes as) ↔
      ∀ cap, budget.byteCap = some cap → before + totalBytes as ≤ cap.toNat := by
    change bytes.Allows (totalBytes as) ↔ _
    unfold Ledger.Allows
    rw [hcap]
    refine forall_congr' fun cap => forall_congr' fun hsome => ?_
    rw [hbefore cap hsome]
  rw [Allows, hcount, hbytes]
  exact ⟨fun h => ⟨h.1, h.2⟩, fun h => ⟨h.count, h.bytes⟩⟩

/-- At the beginning of a category a refusal is that of its budget. -/
theorem refusal_start (budget : Budget) (c : Category) (bytes : Ledger) (admitted : Nat) :
    (start budget c bytes).refusal admitted = budget.refusal c admitted := by
  have hcap : (start budget c bytes).count.capacity.map UInt64.toNat =
      (budget.countCap c).map UInt32.toNat := by
    simp [start, Ledger.new, Function.comp_def]
  have hused : (start budget c bytes).count.used.toNat = 0 := rfl
  rw [refusal, Budget.refusal, hcap, hused, Nat.zero_add]

/-- The rule for the walk of a category is the rule for the category. -/
theorem AdmitsLongest.of_start {as : List Attachment} {admitted : Nat}
    (h : (start budget c bytes).AdmitsLongest as admitted)
    (hcap : bytes.capacity = budget.byteCap)
    (hbefore : ∀ cap, budget.byteCap = some cap → bytes.used.toNat = before) :
    budget.AdmitsLongest c before as ((start budget c bytes).verdicts as) admitted := by
  have hallows := allows_start_iff (c := c) hcap hbefore
  constructor
  · exact h.le_length
  · exact (hallows _).mp h.allows
  · exact fun n hn hlonger => h.longest n hn ((hallows _).mpr hlonger)
  · rw [← refusal_start budget c bytes]
    exact h.verdicts_eq

/-- A walk starts exact if the ledger of bytes is. -/
theorem exact_start {as : List Attachment} (hbytes : bytes.CountsExactly (totalBytes as)) :
    (start budget c bytes).Exact as := by
  refine ⟨rfl, ?_, hbytes⟩
  intro cap hcap
  obtain ⟨n, _, rfl⟩ := Option.map_eq_some_iff.mp hcap
  have hlt := n.toNat_lt
  simp only [UInt32.toNat_toUInt64, Ledger.largest, UInt64.size]
  omega

end Start

end Walk

/-! ## All categories -/

/-- Not more bytes are admitted than there are. -/
theorem totalBytes_admitted_le (w : Walk) (as : List Attachment) :
    totalBytes (w.admitted as) ≤ totalBytes as := by
  induction as generalizing w with
  | nil => exact Nat.le_refl 0
  | cons a as ih =>
      have hrest := ih (w.next a).2
      rw [Walk.admitted]
      split <;> simp only [totalBytes_cons] <;> omega

/-- Bytes that are fewer in each category are fewer in all of them together. -/
theorem totalBytes_flatMap_le {f g : Category → List Attachment}
    (h : ∀ c, totalBytes (f c) ≤ totalBytes (g c)) (cs : List Category) :
    totalBytes (cs.flatMap f) ≤ totalBytes (cs.flatMap g) := by
  induction cs with
  | nil => exact Nat.le_refl 0
  | cons c cs ih =>
      have hc := h c
      simp only [List.flatMap_cons, totalBytes_append]
      omega

theorem totalBytes_chargeable_le (attachments : List Attachment) :
    totalBytes (Category.all.flatMap fun c => chargeable c attachments) ≤
      totalBytes attachments := by
  induction attachments with
  | nil => exact Nat.le_refl 0
  | cons a attachments ih =>
      simp only [Category.all, List.flatMap_cons, List.flatMap_nil, totalBytes_append,
        totalBytes_nil, chargeable, List.filter_cons, totalBytes_cons] at ih ⊢
      cases hremote : a.isRemote with
      | true => simp; omega
      | false => cases hcategory : a.category <;> simp <;> omega

variable {budget : Budget} {attachments : List Attachment} {a : Allocation}

/-- What is admitted before a category and what is charged to it are different attachments of the
list. -/
theorem admitted_before_le (ha : Allocation.of attachments .all budget = .ok a) (c : Category) :
    totalBytes (c.before.flatMap fun earlier => a.admittedIn earlier attachments) +
      totalBytes (chargeable c attachments) ≤ totalBytes attachments := by
  obtain ⟨after, hall, _, _⟩ := c.exists_all_eq
  have hadmitted : totalBytes (c.before.flatMap fun earlier => a.admittedIn earlier attachments) ≤
      totalBytes (c.before.flatMap fun earlier => chargeable earlier attachments) := by
    apply totalBytes_flatMap_le
    intro earlier
    rw [admittedIn_of ha]
    exact totalBytes_admitted_le _ _
  have hcharged := totalBytes_chargeable_le attachments
  rw [hall, List.flatMap_append, List.flatMap_cons, totalBytes_append, totalBytes_append] at hcharged
  omega

/-- What the greedy rule says of an allocation: the decisions are in the order of the list, attachments
that lie with somebody else ship uncharged, every category admits the longest part that the caps and
the categories before it allow, and what ships is picked in the order of the list. -/
structure FollowsRule (budget : Budget) (attachments : List Attachment) (a : Allocation) : Prop where
  places : (a.decisions.map fun d => (d.index, d.category)) =
    attachments.zipIdx.map fun p => (p.2, p.1.category)
  remote : ∀ p ∈ attachments.zip a.decisions, p.1.isRemote = true → p.2.verdict = .whitelisted
  categories : ∀ c, ∃ admitted, budget.AdmitsLongest c
    (totalBytes (c.before.flatMap fun earlier => a.admittedIn earlier attachments))
    (chargeable c attachments) (a.verdictsIn c attachments) admitted
  ascending : a.shipped.Pairwise (· < ·)
  picked : (a.pick attachments).map some = a.shipped.map fun i => attachments[i]?

/-- **Allocations follow the greedy rule.**  Under a budget with a cap, unless the byte cap is the
largest word and the sizes add up to more, there is an allocation, and it follows the rule. -/
theorem allocation_follows_rule (hlimited : budget.isLimited = true)
    (hexact : ∀ cap, budget.byteCap = some cap →
      cap.toNat < Ledger.largest ∨ totalBytes attachments ≤ Ledger.largest) :
    ∃ a, Allocation.of attachments .all budget = .ok a ∧ FollowsRule budget attachments a := by
  obtain ⟨a, ha⟩ : ∃ a, Allocation.of attachments .all budget = .ok a :=
    exists_of (Or.inr hlimited) attachments
  refine ⟨a, ha, places_decisions ha, verdict_of_isRemote ha, ?_, shipped_ascends ha,
    map_some_pick ha⟩
  intro c
  have hcap : (served budget attachments c.before).2.capacity = budget.byteCap :=
    serveAll_capacity budget _ _ _
  have hwithin : (served budget attachments c.before).2.Within :=
    serveAll_within budget (Ledger.within_new _) _ _
  have hused := used_before ha c
  have htotal := admitted_before_le ha c
  have hbefore : ∀ cap, budget.byteCap = some cap →
      (served budget attachments c.before).2.used.toNat =
        totalBytes (c.before.flatMap fun earlier => a.admittedIn earlier attachments) := by
    intro cap hsome
    have hle := hwithin cap (hcap.trans hsome)
    rcases hexact cap hsome with hlt | hsum <;> omega
  have hbytes : (served budget attachments c.before).2.CountsExactly
      (totalBytes (chargeable c attachments)) := by
    intro cap hsome
    rw [hcap] at hsome
    rcases hexact cap hsome with hlt | hsum
    · exact Or.inl hlt
    · right
      rw [hbefore cap hsome]
      omega
  have hstart : (Walk.start budget c (served budget attachments c.before).2).Allows [] :=
    ⟨fun cap _ => Nat.zero_le _, fun cap hsome => hwithin cap hsome⟩
  obtain ⟨admitted, hlongest⟩ := (Walk.exact_start (c := c) hbytes).admitsLongest hstart
  refine ⟨admitted, ?_⟩
  rw [verdictsIn_of ha]
  exact hlongest.of_start hcap hbefore

/-- Pictures and documents, one picture with somebody else, the last picture empty. -/
def album : List Attachment :=
  [{ picture 300 with group := some .dokumente }, picture 600,
    { picture 5000 with location := .remote }, picture 400, picture 0,
    { picture 1 with group := some .dokumente }]

/-- A thousand bytes, and two pictures. -/
def albumBudget : Budget :=
  (Budget.ofBytes (some 1000)).withCountCap .picture 2

/-- Two pictures use both caps up: the empty picture is refused for the count, and the document for the
bytes. -/
theorem album_follows_rule :
    albumBudget.isLimited = true ∧
    (∀ cap, albumBudget.byteCap = some cap →
      cap.toNat < Ledger.largest ∨ totalBytes album ≤ Ledger.largest) ∧
    ∃ a, Allocation.of album .all albumBudget = .ok a ∧ FollowsRule albumBudget album a ∧
      a.verdictsIn .picture album = [.admitted, .admitted, .countCapReached] ∧
      a.verdictsIn .document album = [.byteCapReached, .categoryClosed] := by
  have hlimited : albumBudget.isLimited = true := rfl
  have hexact : ∀ cap, albumBudget.byteCap = some cap →
      cap.toNat < Ledger.largest ∨ totalBytes album ≤ Ledger.largest := by
    intro cap _
    exact Or.inr (by decide)
  obtain ⟨a, ha, hrule⟩ := allocation_follows_rule hlimited hexact
  have hpictures := verdictsIn_of ha .picture
  have hdocuments := verdictsIn_of ha .document
  exact ⟨hlimited, hexact, a, ha, hrule, hpictures.trans (by decide), hdocuments.trans (by decide)⟩

end Allocation

end ListingQuery
