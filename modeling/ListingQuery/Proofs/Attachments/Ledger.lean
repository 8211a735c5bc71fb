import ListingQuery.Attachments.Ledger

/-!
# Ledgers against exact sums

A ledger adds words and saturates; the statements here say what it does in natural numbers.

* `Ledger.toNat_saturatingAdd` is the sum of two words, cut at the largest word;
* `Ledger.fits_iff` says that a ledger whose capacity is not the largest word grants a request
  exactly when the exact total stays within the capacity;
* `Ledger.fits_of_capacity_max` says that a ledger whose capacity is the largest word grants every
  request, since a saturated total never passes it;
* `Ledger.Within.acquire` keeps the total within the capacity from one request to the next;
* `Ledger.answer_request` and `Ledger.toNat_used_afterCalls` are the step and the run of a ledger that
  is asked and charged in any order, and `Ledger.calls_on_new_ledger` says what holds behind any calls.
-/

namespace ListingQuery.Ledger

/-- The largest word, where totals saturate. -/
def largest : Nat := UInt64.size - 1

/-- No word is larger than the largest. -/
theorem toNat_le_largest (n : UInt64) : n.toNat ≤ largest := by
  have hlt := n.toNat_lt
  simp only [largest, UInt64.size]
  omega

/-- The saturating sum of two words is their exact sum, or the largest word if that is smaller. -/
theorem toNat_saturatingAdd (a b : UInt64) :
    (saturatingAdd a b).toNat = min largest (a.toNat + b.toNat) := by
  unfold saturatingAdd
  by_cases hfit : a.toNat + b.toNat < UInt64.size
  · rw [if_pos hfit, UInt64.toNat_add, Nat.mod_eq_of_lt hfit]
    simp only [largest]
    omega
  · rw [if_neg hfit]
    have hlargest : (UInt64.ofNat (UInt64.size - 1)).toNat = largest := rfl
    rw [hlargest]
    simp only [largest]
    omega

/-- Without a capacity every request fits. -/
theorem fits_of_capacity_none {l : Ledger} {amount : UInt64} (hcap : l.capacity = none) :
    l.fits amount = true := by
  simp [fits, hcap]

/-- A request fits if the total with it, cut at the largest word, stays within the capacity. -/
theorem fits_iff_min_le {l : Ledger} {amount capacity : UInt64}
    (hcap : l.capacity = some capacity) :
    l.fits amount = true ↔ min largest (l.used.toNat + amount.toNat) ≤ capacity.toNat := by
  simp only [fits, hcap, decide_eq_true_eq, UInt64.le_iff_toNat_le, toNat_saturatingAdd]

/-- Below the largest word, a request fits exactly when the exact total stays within the
capacity. -/
theorem fits_iff {l : Ledger} {amount capacity : UInt64} (hcap : l.capacity = some capacity)
    (hlt : capacity.toNat < largest) :
    l.fits amount = true ↔ l.used.toNat + amount.toNat ≤ capacity.toNat := by
  rw [fits_iff_min_le hcap]
  omega

/-- The capacity, if there is one, has room for an exact amount. -/
def Allows (l : Ledger) (amount : Nat) : Prop :=
  ∀ capacity, l.capacity = some capacity → l.used.toNat + amount ≤ capacity.toNat

/-- On requests of an exact amount together, a ledger saturates only beyond its capacity. -/
def CountsExactly (l : Ledger) (amount : Nat) : Prop :=
  ∀ capacity, l.capacity = some capacity →
    capacity.toNat < largest ∨ l.used.toNat + amount ≤ largest

/-- A ledger that counts an amount exactly counts smaller ones exactly. -/
theorem CountsExactly.mono {l : Ledger} {m n : Nat} (hexact : l.CountsExactly n) (hle : m ≤ n) :
    l.CountsExactly m := by
  intro capacity hcap
  have hbound := hexact capacity hcap
  omega

/-- A ledger that counts exactly grants what it has room for. -/
theorem CountsExactly.fits_iff {l : Ledger} {amount : UInt64}
    (hexact : l.CountsExactly amount.toNat) : l.fits amount = true ↔ l.Allows amount.toNat := by
  unfold Allows
  cases hcap : l.capacity with
  | none => simp [fits_of_capacity_none hcap]
  | some capacity =>
      have hbound := hexact capacity hcap
      have hle := toNat_le_largest capacity
      rw [fits_iff_min_le hcap]
      simp only [Option.some.injEq, forall_eq']
      omega

/-- A ledger within its capacity has room for one more unless it is used up. -/
theorem not_allows_one_iff {l : Ledger} (hwithin : l.Allows 0) :
    ¬ l.Allows 1 ↔ l.capacity.map UInt64.toNat = some l.used.toNat := by
  cases hcap : l.capacity with
  | none => simp [Allows, hcap]
  | some capacity =>
      have hle := hwithin capacity hcap
      simp only [Allows, hcap, Option.some.injEq, forall_eq', Option.map_some]
      omega

/-- Against the largest word as its capacity, a ledger grants every request. -/
theorem fits_of_capacity_max {l : Ledger} {amount capacity : UInt64}
    (hcap : l.capacity = some capacity) (hmax : capacity.toNat = largest) :
    l.fits amount = true := by
  rw [fits_iff_min_le hcap]
  omega

/-- A request leaves the capacity alone. -/
@[simp] theorem acquire_capacity (l : Ledger) (amount : UInt64) :
    (l.acquire amount).capacity = l.capacity := by
  unfold acquire
  split <;> rfl

/-- A granted request adds its amount to the total, which saturates. -/
theorem acquire_used_of_fits {l : Ledger} {amount : UInt64} (hfits : l.fits amount = true) :
    (l.acquire amount).used.toNat = min largest (l.used.toNat + amount.toNat) := by
  simp [acquire, hfits, toNat_saturatingAdd]

section Granted

variable {l : Ledger} {amount : UInt64} (hfits : l.fits amount = true)
include hfits

/-- A ledger with a capacity that counts exactly adds what it grants exactly. -/
theorem CountsExactly.acquire_used (hexact : l.CountsExactly amount.toNat) {capacity : UInt64}
    (hcap : l.capacity = some capacity) :
    (l.acquire amount).used.toNat = l.used.toNat + amount.toNat := by
  have hbound := hexact capacity hcap
  have hle := hexact.fits_iff.mp hfits capacity hcap
  rw [acquire_used_of_fits hfits]
  omega

/-- What is granted leaves less room. -/
theorem CountsExactly.allows_acquire_iff (hexact : l.CountsExactly amount.toNat) (rest : Nat) :
    (l.acquire amount).Allows rest ↔ l.Allows (amount.toNat + rest) := by
  unfold Allows
  rw [acquire_capacity]
  refine forall_congr' fun capacity => forall_congr' fun hcap => ?_
  rw [hexact.acquire_used hfits hcap, Nat.add_assoc]

/-- The ledger behind a request counts exactly what is left of the requests. -/
theorem CountsExactly.acquire {rest : Nat} (hexact : l.CountsExactly (amount.toNat + rest)) :
    (l.acquire amount).CountsExactly rest := by
  intro capacity hcap
  rw [acquire_capacity] at hcap
  have hbound := hexact capacity hcap
  rw [acquire_used_of_fits hfits]
  omega

end Granted

/-- The total is within the capacity, if there is one. -/
def Within (l : Ledger) : Prop :=
  ∀ capacity, l.capacity = some capacity → l.used.toNat ≤ capacity.toNat

/-- A new ledger is within its capacity. -/
theorem within_new (capacity : Option UInt64) : (new capacity).Within := by
  intro c _
  exact Nat.zero_le _

/-- A request keeps the total within the capacity, granted or not. -/
theorem Within.acquire {l : Ledger} (hwithin : l.Within) (amount : UInt64) :
    (l.acquire amount).Within := by
  intro capacity hcap
  rw [acquire_capacity] at hcap
  by_cases hfits : l.fits amount = true
  · rw [acquire_used_of_fits hfits]
    exact (fits_iff_min_le hcap).mp hfits
  · simpa [Ledger.acquire, hfits] using hwithin capacity hcap

/-- What is left is the exact difference of capacity and total. -/
theorem Within.remaining {l : Ledger} {capacity : UInt64} (hwithin : l.Within)
    (hcap : l.capacity = some capacity) :
    ∃ left, l.remaining = some left ∧ left.toNat + l.used.toNat = capacity.toNat := by
  have hle : l.used ≤ capacity := UInt64.le_iff_toNat_le.mpr (hwithin capacity hcap)
  refine ⟨capacity - l.used, by simp [Ledger.remaining, hcap, hle], ?_⟩
  rw [UInt64.toNat_sub_of_le _ _ hle]
  exact Nat.sub_add_cancel (hwithin capacity hcap)

/-! ## Calls one after the other -/

/-- A request is granted if the amount fits, and the ledger behind it has acquired what fits. -/
theorem answer_request (l : Ledger) (amount : UInt64) :
    l.answer (.request amount) = (l.fits amount, l.acquire amount) := by
  cases hfits : l.fits amount <;> simp [answer, acquire, hfits]

/-- The ledger behind calls. -/
def afterCalls (l : Ledger) (calls : List Call) : Ledger :=
  calls.foldl (fun l call => (l.answer call).2) l

/-- The amount that a call charges if its answer is yes. -/
def Call.charge : Call → Nat
  | ask _ => 0
  | request amount => amount.toNat

/-- The exact sum of the amounts that are granted in the course of calls. -/
def granted (l : Ledger) : List Call → Nat
  | [] => 0
  | call :: calls =>
    (if (l.answer call).1 then call.charge else 0) + granted (l.answer call).2 calls

/-- No call changes the capacity. -/
@[simp] theorem answer_capacity (l : Ledger) (call : Call) :
    (l.answer call).2.capacity = l.capacity := by
  cases call with
  | ask amount => rfl
  | request amount => rw [answer_request, acquire_capacity]

/-- **One call** adds to the total what it is granted; the total saturates. -/
theorem toNat_used_answer (l : Ledger) (call : Call) :
    (l.answer call).2.used.toNat =
      min largest (l.used.toNat + if (l.answer call).1 then call.charge else 0) := by
  have hle := toNat_le_largest l.used
  cases call with
  | ask amount =>
      have hnothing : (if (l.answer (.ask amount)).1 then (Call.ask amount).charge else 0) = 0 :=
        ite_self 0
      rw [hnothing, Nat.add_zero, Nat.min_eq_right hle]
      rfl
  | request amount =>
      rw [answer_request]
      cases hfits : l.fits amount with
      | true => simpa [Call.charge] using acquire_used_of_fits hfits
      | false => simp [acquire, hfits, hle]

/-- One call keeps the total within the capacity. -/
theorem Within.answer {l : Ledger} (hwithin : l.Within) (call : Call) :
    (l.answer call).2.Within := by
  cases call with
  | ask amount => exact hwithin
  | request amount =>
      rw [answer_request]
      exact hwithin.acquire amount

@[simp] theorem afterCalls_capacity (l : Ledger) (calls : List Call) :
    (l.afterCalls calls).capacity = l.capacity := by
  induction calls generalizing l with
  | nil => rfl
  | cons call calls ih => exact (ih _).trans (l.answer_capacity call)

/-- **Any calls** add to the total what they are granted, exactly counted; the total saturates. -/
theorem toNat_used_afterCalls (l : Ledger) (calls : List Call) :
    (l.afterCalls calls).used.toNat = min largest (l.used.toNat + l.granted calls) := by
  induction calls generalizing l with
  | nil =>
      have hle := toNat_le_largest l.used
      simp [afterCalls, granted, hle]
  | cons call calls ih =>
      have hstep := l.toNat_used_answer call
      have hrest := ih (l.answer call).2
      -- a total that is cut twice at the largest word is cut once
      simp only [afterCalls, granted, List.foldl_cons] at hrest ⊢
      omega

/-- Any calls keep the total within the capacity. -/
theorem Within.afterCalls {l : Ledger} (hwithin : l.Within) (calls : List Call) :
    (l.afterCalls calls).Within := by
  induction calls generalizing l with
  | nil => exact hwithin
  | cons call calls ih => exact ih (hwithin.answer call)

/-- **A new ledger behind any calls.**  A request is granted exactly if the same question just before
it is answered with yes; questions and refused requests change nothing.  The total is the exact sum of
what was granted, or the largest word if that is smaller.  With a capacity, the total stays within it,
what is left is the exact difference, and below the largest word a request is granted exactly if the
exact total with it stays within the capacity. -/
theorem calls_on_new_ledger (capacity : Option UInt64) (calls : List Call) :
    (∀ amount,
      (((new capacity).afterCalls (calls ++ [.ask amount])).answer (.request amount)).1 =
        (((new capacity).afterCalls calls).answer (.ask amount)).1) ∧
    (∀ amount, (new capacity).afterCalls (calls ++ [.ask amount]) = (new capacity).afterCalls calls) ∧
    (∀ amount, (((new capacity).afterCalls calls).answer (.request amount)).1 = false →
      (new capacity).afterCalls (calls ++ [.request amount]) = (new capacity).afterCalls calls) ∧
    ((new capacity).afterCalls calls).used.toNat =
      min largest ((new capacity).granted calls) ∧
    ∀ most, capacity = some most →
      ((new capacity).afterCalls calls).used.toNat ≤ most.toNat ∧
      (∃ left, ((new capacity).afterCalls calls).remaining = some left ∧
        ((new capacity).afterCalls calls).used.toNat + left.toNat = most.toNat) ∧
      (most.toNat < largest → ∀ amount,
        (((new capacity).afterCalls calls).answer (.request amount)).1 = true ↔
          ((new capacity).afterCalls calls).used.toNat + amount.toNat ≤ most.toNat) := by
  have hconcat : ∀ call, (new capacity).afterCalls (calls ++ [call]) =
      (((new capacity).afterCalls calls).answer call).2 := by
    intro call
    simp [afterCalls]
  have hused := toNat_used_afterCalls (new capacity) calls
  have hwithin := (within_new capacity).afterCalls calls
  refine ⟨fun amount => ?_, fun amount => hconcat _, fun amount hrefused => ?_, ?_, ?_⟩
  · rw [hconcat, answer_request]
    rfl
  · rw [answer_request] at hrefused
    rw [hconcat, answer_request, acquire, if_neg (Bool.eq_false_iff.mp hrefused)]
  · have hnothing : (new capacity).used.toNat = 0 := rfl
    rw [hused, hnothing, Nat.zero_add]
  · rintro most rfl
    have hcap : ((new (some most)).afterCalls calls).capacity = some most := afterCalls_capacity _ _
    obtain ⟨left, hleft, hsum⟩ := hwithin.remaining hcap
    refine ⟨hwithin most hcap, ⟨left, hleft, by omega⟩, fun hlt amount => ?_⟩
    rw [answer_request]
    exact fits_iff hcap hlt

/-- Ten in all: seven are granted, four more are not, and then three are. -/
def tenInAll : List Call :=
  [.request 7, .ask 4, .request 4, .request 3]

/-- The ten are used up, so that one more is refused. -/
theorem tenInAll_used_up :
    ((new (some 10)).afterCalls tenInAll).used.toNat = 10 ∧
      ((new (some 10)).afterCalls tenInAll).used.toNat ≤ (10 : UInt64).toNat ∧
      (((new (some 10)).afterCalls tenInAll).answer (.request 1)).1 = false ∧
      (new (some 10)).afterCalls (tenInAll ++ [.request 1]) = (new (some 10)).afterCalls tenInAll := by
  obtain ⟨-, -, hrefused, hused, hcapped⟩ := calls_on_new_ledger (some 10) tenInAll
  obtain ⟨hwithin, -, hgranted⟩ := hcapped 10 rfl
  have hten : ((new (some 10)).afterCalls tenInAll).used.toNat = 10 := by
    rw [hused]
    decide
  have hone : (((new (some 10)).afterCalls tenInAll).answer (.request 1)).1 = false := by
    rw [Bool.eq_false_iff, ne_eq, hgranted (by decide) 1, hten]
    decide
  exact ⟨hten, hwithin, hone, hrefused 1 hone⟩

end ListingQuery.Ledger
