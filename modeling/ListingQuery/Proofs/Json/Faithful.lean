import ListingQuery.Proofs.Json.Unambiguous
import ListingQuery.Proofs.Listing.RoundTrip

/-!
# Writers that lose nothing

A record is written with all its elements, so that different records are written as different trees if
their elements are.  The text of the tree then tells the record, without a reader for it.

* `Json.Faithful` is a way to write values such that the text tells the value;
* `Faithful.eq_of_compact` is what follows for two texts;
* `Faithful.ofCodec` are the values that are read back, `Faithful.list` and
  `Faithful.ofOption_injective` are lists and options.
-/

namespace ListingQuery.Json

/-- Different values are written as different trees and none as `null`, and the tree of a value that
fits is told by its text. -/
structure Faithful {α : Type} (write : α → Json) (fits : α → Prop) : Prop where
  injective : Function.Injective write
  notNull : ∀ a, write a ≠ .null
  definite : ∀ a, fits a → (write a).Definite

variable {α : Type}

namespace Faithful

variable {write : α → Json} {fits : α → Prop}

/-- **The text tells the value.** -/
theorem eq_of_compact (f : Faithful write fits) {a b : α} (ha : fits a) (hb : fits b)
    (h : (write a).compact = (write b).compact) : a = b :=
  f.injective ((f.definite a ha).eq_of_compact (f.definite b hb) h)

/-- What is read back has not lost anything. -/
theorem ofCodec {read? : Json → Option α} {rereads : α → Prop} (c : Codec write read? rereads)
    (hdefinite : ∀ a, fits a → (write a).Definite) : Faithful write fits where
  injective := by
    intro a b h
    have hread := c.read a
    rw [h, c.read] at hread
    exact (Option.some.inj hread).symm
  notNull := c.notNull
  definite := hdefinite

/-! ## Options, lists and maps -/

/-- Since no value is `null`, an option is told. -/
theorem ofOption_injective (f : Faithful write fits) : Function.Injective (ofOption write) := by
  intro a b h
  cases a with
  | none =>
      cases b with
      | none => rfl
      | some b => exact (f.notNull b h.symm).elim
  | some a =>
      cases b with
      | none => exact (f.notNull a h).elim
      | some b => exact congrArg some (f.injective h)

/-- An option of values that fit is told by its text. -/
theorem definite_ofOption (f : Faithful write fits) {o : Option α} (h : ∀ a ∈ o, fits a) :
    (ofOption write o).Definite := by
  cases o with
  | none => exact .word .null
  | some a => exact f.definite a (h a rfl)

/-- Lists of values are written as faithfully as the values. -/
theorem list (f : Faithful write fits) :
    Faithful (fun as : List α => .array (as.map write)) fun as => ∀ a ∈ as, fits a where
  injective := by
    intro as bs h
    exact f.injective.list_map (Json.array.inj h)
  notNull _ := nofun
  definite as h := by
    refine .array fun j hj => ?_
    obtain ⟨a, ha, rfl⟩ := List.mem_map.mp hj
    exact f.definite a (h a ha)

end Faithful

/-- A map whose keys are texts is an object. -/
@[simp] theorem ofMap_str (key : α → String) (value : α → Json) (as : List α) :
    ofMap (as.map fun a => (.str (key a), value a)) = .object (as.map fun a => (key a, value a)) := by
  have hmembers : members? (as.map fun a => (.str (key a), value a)) =
      some (as.map fun a => (key a, value a)) := by
    induction as with
    | nil => rfl
    | cons a as ih => simp only [List.map_cons, members?, ih, Option.map_some]
  rw [ofMap, hmembers]
  rfl

/-! ## Scalars -/

namespace Faithful

theorem str : Faithful .str fun _ => True :=
  ofCodec Codec.str fun s _ => .str s

theorem int64 : Faithful ofInt64 fun _ => True :=
  ofCodec Codec.int64 fun _ _ => .word (.int _)

theorem uint64 : Faithful ofUInt64 fun _ => True :=
  ofCodec Codec.uint64 fun _ _ => .word (.int _)

theorem uint32 : Faithful ofUInt32 fun _ => True where
  injective := by
    intro a b h
    exact UInt32.toNat.inj (Int.ofNat.inj (Json.int.inj h))
  notNull _ := nofun
  definite _ _ := .word (.int _)

end Faithful

@[simp] theorem ofInt64_inj {i j : Int64} : ofInt64 i = ofInt64 j ↔ i = j :=
  Faithful.int64.injective.eq_iff

@[simp] theorem ofUInt64_inj {m n : UInt64} : ofUInt64 m = ofUInt64 n ↔ m = n :=
  Faithful.uint64.injective.eq_iff

@[simp] theorem ofUInt32_inj {m n : UInt32} : ofUInt32 m = ofUInt32 n ↔ m = n :=
  Faithful.uint32.injective.eq_iff

/-- Words that may be missing are told apart by their trees. -/
@[simp] theorem ofOption_ofUInt64_inj {m n : Option UInt64} :
    ofOption ofUInt64 m = ofOption ofUInt64 n ↔ m = n :=
  Faithful.uint64.ofOption_injective.eq_iff

@[simp] theorem definite_str (s : String) : (Json.str s).Definite :=
  .str s

@[simp] theorem definite_bool (b : Bool) : (Json.bool b).Definite :=
  .word (.bool b)

@[simp] theorem definite_ofInt64 (i : Int64) : (ofInt64 i).Definite :=
  Faithful.int64.definite i trivial

@[simp] theorem definite_ofUInt64 (n : UInt64) : (ofUInt64 n).Definite :=
  Faithful.uint64.definite n trivial

@[simp] theorem definite_ofUInt32 (n : UInt32) : (ofUInt32 n).Definite :=
  Faithful.uint32.definite n trivial

@[simp] theorem definite_ofOption_ofUInt64 (n : Option UInt64) : (ofOption ofUInt64 n).Definite :=
  Faithful.uint64.definite_ofOption fun _ _ => trivial

end ListingQuery.Json
