import Mathlib.Data.Finset.Card

/-!
# Items in one place each

Finitely many items, each of which is in exactly one place.  Moving an item
from its place to another keeps this, and more places than items cannot all
be taken.
-/

namespace PqComm.Lib

section

variable {Place Item : Type}

/-- Every item has one place, and the places hold nothing else. -/
structure Custody (items : Finset Item) (At : Place → Item → Prop) : Prop where
  somewhere : ∀ x ∈ items, ∃ p, At p x
  once : ∀ p q x, At p x → At q x → p = q
  known : ∀ p x, At p x → x ∈ items

variable {items : Finset Item} {At At' : Place → Item → Prop}

theorem Custody.congr
    (custody : Custody items At) (same : ∀ p x, At' p x ↔ At p x) :
    Custody items At' where
  somewhere := by
    intro x member
    obtain ⟨p, here⟩ := custody.somewhere x member
    exact ⟨p, (same p x).mpr here⟩
  once := by
    intro p q x left right
    exact custody.once p q x ((same p x).mp left) ((same q x).mp right)
  known := by
    intro p x here
    exact custody.known p x ((same p x).mp here)

/-- An item moves from `source` to `target`. -/
theorem Custody.move
    (custody : Custody items At) (source target : Place) (item : Item)
    (here : At source item)
    (others : ∀ p x, p ≠ source → p ≠ target → (At' p x ↔ At p x))
    (left : ∀ x, At' source x ↔ At source x ∧ x ≠ item)
    (arrived : ∀ x, At' target x ↔ At target x ∨ x = item) :
    Custody items At' := by
  -- Away from the moved item nothing changes, and that one is at `target`.
  have elsewhere : ∀ p x, x ≠ item → (At' p x ↔ At p x) := by
    intro p x other
    by_cases source' : p = source
    · rw [source', left]
      exact and_iff_left other
    · by_cases target' : p = target
      · rw [target', arrived]
        exact or_iff_left other
      · exact others p x source' target'
  have only : ∀ p, At' p item ↔ p = target := by
    intro p
    constructor
    · intro there
      by_contra target'
      by_cases source' : p = source
      · rw [source', left] at there
        exact there.2 rfl
      · rw [others p item source' target'] at there
        exact source' (custody.once p source item there here)
    · intro same
      rw [same, arrived]
      exact Or.inr rfl
  constructor
  · intro x member
    by_cases moved : x = item
    · exact ⟨target, moved ▸ (only target).mpr rfl⟩
    · obtain ⟨p, there⟩ := custody.somewhere x member
      exact ⟨p, (elsewhere p x moved).mpr there⟩
  · intro p q x first second
    by_cases moved : x = item
    · rw [moved, only] at first second
      exact first.trans second.symm
    · rw [elsewhere _ _ moved] at first second
      exact custody.once p q x first second
  · intro p x there
    by_cases moved : x = item
    · rw [moved]
      exact custody.known source item here
    · exact custody.known p x ((elsewhere p x moved).mp there)

/-- Places that are all taken, beside one more that is taken, are fewer than
the items. -/
theorem Custody.lt_card
    (custody : Custody items At) {n : Nat} (places : Nat → Place)
    (distinct : ∀ k l, places k = places l → k = l)
    (content : Nat → Item) (taken : ∀ k, k < n → At (places k) (content k))
    (other : Place) {item : Item} (there : At other item)
    (apart : ∀ k, places k ≠ other) : n < items.card := by
  classical
  have injective :
      Set.InjOn content (Finset.range n) := by
    intro k inside l inside' same
    have first := taken k (Finset.mem_range.mp inside)
    have second := taken l (Finset.mem_range.mp inside')
    rw [← same] at second
    exact distinct k l (custody.once _ _ _ first second)
  have missing : item ∉ (Finset.range n).image content := by
    intro member
    obtain ⟨k, inside, same⟩ := Finset.mem_image.mp member
    have first := taken k (Finset.mem_range.mp inside)
    rw [same] at first
    exact apart k (custody.once _ _ _ first there)
  have subset : insert item ((Finset.range n).image content) ⊆ items := by
    intro x member
    rcases Finset.mem_insert.mp member with rfl | old
    · exact custody.known other x there
    · obtain ⟨k, inside, rfl⟩ := Finset.mem_image.mp old
      exact custody.known _ _ (taken k (Finset.mem_range.mp inside))
  have size := Finset.card_le_card subset
  rw [Finset.card_insert_of_notMem missing,
    Finset.card_image_of_injOn injective, Finset.card_range] at size
  exact size

end

end PqComm.Lib
