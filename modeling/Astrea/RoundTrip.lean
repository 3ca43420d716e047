/-
# Encoders that can be read back

An encoder that may fail, and a reader of what it gives.  On the inputs where the round trip works,
the encoder succeeds and loses nothing, and so does the encoding of a list element by element.
-/
import Mathlib.Data.List.Forall2
import Mathlib.Data.Option.Basic

namespace RoundTrip

variable {ε α β : Type}

/-- On the valid inputs, `encode` succeeds with a value that `read` takes back to the input. -/
def RoundTrips (valid : α → Prop) (encode : α → Except ε β) (read : β → Option α) : Prop :=
  ∀ a, valid a → ∃ b, encode a = .ok b ∧ read b = some a

/-- A list is encoded element by element, in its order. -/
def Encodes (encode : α → Except ε β) (as : List α) (bs : List β) : Prop :=
  List.Forall₂ (fun a b => encode a = .ok b) as bs

section One

variable {valid : α → Prop} {encode : α → Except ε β} {read : β → Option α}

theorem RoundTrips.read_eq (h : RoundTrips valid encode read) {a : α} {b : β} (ha : valid a)
    (hb : encode a = .ok b) : read b = some a := by
  obtain ⟨b', hb', hread⟩ := h a ha
  obtain rfl := Except.ok.inj (hb.symm.trans hb')
  exact hread

/-- Two valid inputs with one encoding are the same. -/
theorem RoundTrips.injective (h : RoundTrips valid encode read) {a a' : α} {b : β} (ha : valid a)
    (ha' : valid a') (hb : encode a = .ok b) (hb' : encode a' = .ok b) : a = a' :=
  Option.some_inj.mp ((h.read_eq ha hb).symm.trans (h.read_eq ha' hb'))

end One

section Lists

variable {valid : α → Prop} {encode : α → Except ε β} {read : β → Option α} {as as' : List α}
  {bs : List β}

theorem RoundTrips.exists_encodes (h : RoundTrips valid encode read) (has : ∀ a ∈ as, valid a) :
    ∃ bs, Encodes encode as bs := by
  induction as with
  | nil => exact ⟨[], .nil⟩
  | cons a as ih =>
      obtain ⟨ha, has⟩ := List.forall_mem_cons.mp has
      obtain ⟨b, hb, -⟩ := h a ha
      obtain ⟨bs, hbs⟩ := ih has
      exact ⟨b :: bs, .cons hb hbs⟩

/-- The elements are read back in their order. -/
theorem RoundTrips.map_read (h : RoundTrips valid encode read) (has : ∀ a ∈ as, valid a)
    (hbs : Encodes encode as bs) : bs.map read = as.map some := by
  induction hbs with
  | nil => rfl
  | @cons a b as bs hb hbs ih =>
      obtain ⟨ha, has⟩ := List.forall_mem_cons.mp has
      rw [List.map_cons, List.map_cons, h.read_eq ha hb, ih has]

theorem RoundTrips.list_injective (h : RoundTrips valid encode read) (has : ∀ a ∈ as, valid a)
    (has' : ∀ a ∈ as', valid a) (hbs : Encodes encode as bs) (hbs' : Encodes encode as' bs) :
    as = as' := by
  have hmap : as.map some = as'.map some :=
    (h.map_read has hbs).symm.trans (h.map_read has' hbs')
  exact List.map_injective_iff.mpr (Option.some_injective α) hmap

/-- What every encoding of one element has, every element of an encoded list has. -/
theorem Encodes.forall_mem {p : β → Prop} (hp : ∀ a b, encode a = .ok b → p b)
    (hbs : Encodes encode as bs) : ∀ b ∈ bs, p b := by
  induction hbs with
  | nil => exact fun b hb => absurd hb List.not_mem_nil
  | cons hb hbs ih => exact List.forall_mem_cons.mpr ⟨hp _ _ hb, ih⟩

end Lists

end RoundTrip
