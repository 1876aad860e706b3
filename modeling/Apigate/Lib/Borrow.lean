import Mathlib.Data.List.Pairwise

/-!
# `Lib.Borrow` — borrows along a straight line of statements

Every statement borrows one place, shared or exclusively, either for the moment it takes or until the end of
the body. A later statement conflicts with an earlier one whose borrow still lives when both are of one place
and one of them is exclusive.
-/

namespace Lib
namespace Borrow

variable {P : Type}

inductive Mode where
  | shared
  | exclusive
  deriving DecidableEq

/-- The borrow that one statement takes. -/
structure Access (P : Type) where
  place : P
  mode : Mode
  /-- It lives until the end of the body. -/
  held : Bool
  deriving DecidableEq

/-- `later` is taken while `earlier` lives, and the two exclude each other. -/
def Conflicts (earlier later : Access P) : Prop :=
  earlier.held = true ∧ earlier.place = later.place ∧ (earlier.mode = .exclusive ∨ later.mode = .exclusive)

instance [DecidableEq P] (earlier later : Access P) : Decidable (Conflicts earlier later) :=
  inferInstanceAs (Decidable (_ ∧ _ ∧ _))

/-- No statement conflicts with an earlier one. -/
def Valid (as : List (Access P)) : Prop := as.Pairwise fun earlier later => ¬ Conflicts earlier later

/-! ## Blocks of equal statements -/

/-- So many statements in a row that take the same borrow. -/
structure Block (P : Type) where
  access : Access P
  count : Nat

namespace Block

def accesses (b : Block P) : List (Access P) := List.replicate b.count b.access

theorem valid_accesses {b : Block P} : Valid b.accesses ↔ b.count ≤ 1 ∨ ¬ Conflicts b.access b.access :=
  List.pairwise_replicate

/-- Between two blocks it comes down to one statement of each, if there are any. -/
theorem forall_accesses {b c : Block P} {R : Access P → Access P → Prop} :
    (∀ x ∈ b.accesses, ∀ y ∈ c.accesses, R x y) ↔ (0 < b.count → 0 < c.count → R b.access c.access) := by
  unfold accesses
  simp only [List.mem_replicate]
  constructor
  · intro h hb hc
    exact h _ ⟨Nat.pos_iff_ne_zero.mp hb, rfl⟩ _ ⟨Nat.pos_iff_ne_zero.mp hc, rfl⟩
  · rintro h x ⟨hb, rfl⟩ y ⟨hc, rfl⟩
    exact h (Nat.pos_of_ne_zero hb) (Nat.pos_of_ne_zero hc)

end Block

/-- **Blocks in a row.** They are valid exactly when every block is, and no block conflicts with one after it. -/
theorem valid_blocks {bs : List (Block P)} :
    Valid (bs.map Block.accesses).flatten ↔
      (∀ b ∈ bs, b.count ≤ 1 ∨ ¬ Conflicts b.access b.access) ∧
        bs.Pairwise fun b c => 0 < b.count → 0 < c.count → ¬ Conflicts b.access c.access := by
  unfold Valid
  rw [List.pairwise_flatten, List.forall_mem_map, List.pairwise_map]
  simp only [Block.forall_accesses]
  exact and_congr_left' (forall₂_congr fun b _ => Block.valid_accesses)

end Borrow
end Lib
