import Mathlib.Algebra.GroupWithZero.Nat
import Mathlib.Algebra.Order.BigOperators.Group.List
import Mathlib.Algebra.Order.Group.Nat
import Mathlib.Data.List.Basic
import Mathlib.Data.Nat.Notation

/-!
# Lists of spans

A span is a stretch of an address space. Lists of spans are kept in the order of
their addresses, with a gap between any two of them: spans that touch are one
span. There is only one such list for what it covers.
-/

namespace MqttAccelero.FreeList

structure Span where
  address : ℕ
  size : ℕ
deriving DecidableEq, Repr

/-- The address behind the span. -/
def Span.stop (span : Span) : ℕ := span.address + span.size

def Span.Has (span : Span) (address : ℕ) : Prop := span.address ≤ address ∧ address < span.stop

def Covers (spans : List Span) (address : ℕ) : Prop := ∃ span ∈ spans, span.Has address

def total (spans : List Span) : ℕ := (spans.map Span.size).sum

/-- The spans have no address in common. -/
def Span.Apart (first second : Span) : Prop :=
  first.stop ≤ second.address ∨ second.stop ≤ first.address

structure Gapped (spans : List Span) : Prop where
  ordered : spans.Pairwise fun first second => first.stop < second.address
  inhabited : ∀ span ∈ spans, 0 < span.size

variable {span first second : Span} {spans others before after : List Span} {address : ℕ}

theorem Span.Apart.symm (apart : first.Apart second) : second.Apart first :=
  Or.symm apart

theorem Span.Apart.not_has (apart : first.Apart second) (has : first.Has address) :
    ¬second.Has address := by
  rintro ⟨lower, upper⟩
  rcases apart with left | right
  · exact absurd (Nat.lt_of_lt_of_le has.2 left) (Nat.not_lt.mpr lower)
  · exact absurd (Nat.lt_of_lt_of_le upper right) (Nat.not_lt.mpr has.1)

theorem Span.apart_of_disjoint (inhabited : 0 < first.size) (inhabitedToo : 0 < second.size)
    (disjoint : ∀ address, first.Has address → ¬second.Has address) : first.Apart second := by
  by_contra meet
  have common : ∃ address, first.Has address ∧ second.Has address := by
    simp only [Apart, Has, stop] at meet ⊢
    rcases Nat.le_total first.address second.address with below | above
    · exact ⟨second.address, by omega⟩
    · exact ⟨first.address, by omega⟩
  rcases common with ⟨address, has, hasToo⟩
  exact disjoint address has hasToo

theorem Span.Apart.address_ne (apart : first.Apart second) (inhabited : 0 < first.size)
    (inhabitedToo : 0 < second.size) : first.address ≠ second.address := by
  intro same
  simp only [Apart, stop] at apart
  omega

theorem Span.has_address (inhabited : 0 < span.size) : span.Has span.address :=
  ⟨Nat.le_refl _, Nat.lt_add_of_pos_right inhabited⟩

@[simp]
theorem covers_nil : ¬Covers [] address := by
  rintro ⟨span, member, -⟩
  cases member

@[simp]
theorem covers_cons : Covers (span :: spans) address ↔ span.Has address ∨ Covers spans address := by
  simp [Covers]

@[simp]
theorem covers_append :
    Covers (before ++ after) address ↔ Covers before address ∨ Covers after address := by
  simp [Covers, or_and_right, exists_or]

@[simp]
theorem total_nil : total [] = 0 := rfl

@[simp]
theorem total_cons : total (span :: spans) = span.size + total spans := by
  simp [total]

@[simp]
theorem total_append : total (before ++ after) = total before + total after := by
  simp [total]

theorem size_le_total (member : span ∈ spans) : span.size ≤ total spans :=
  List.single_le_sum (fun _ _ => Nat.zero_le _) _ (List.mem_map_of_mem member)

theorem covers_perm (same : spans.Perm others) : Covers spans address ↔ Covers others address := by
  simp [Covers, same.mem_iff]

theorem total_perm (same : spans.Perm others) : total spans = total others :=
  (same.map Span.size).sum_eq

/-! ## Gaps -/

theorem gapped_nil : Gapped [] := ⟨List.Pairwise.nil, nofun⟩

theorem gapped_cons : Gapped (span :: spans) ↔
    0 < span.size ∧ (∀ other ∈ spans, span.stop < other.address) ∧ Gapped spans := by
  constructor
  · rintro ⟨ordered, inhabited⟩
    rcases List.pairwise_cons.mp ordered with ⟨behind, rest⟩
    rcases List.forall_mem_cons.mp inhabited with ⟨here, there⟩
    exact ⟨here, behind, rest, there⟩
  · rintro ⟨here, behind, rest, there⟩
    exact ⟨List.pairwise_cons.mpr ⟨behind, rest⟩, List.forall_mem_cons.mpr ⟨here, there⟩⟩

theorem gapped_append : Gapped (before ++ after) ↔
    Gapped before ∧ Gapped after ∧
      ∀ left ∈ before, ∀ right ∈ after, left.stop < right.address := by
  constructor
  · rintro ⟨ordered, inhabited⟩
    rcases List.pairwise_append.mp ordered with ⟨front, back, between⟩
    rcases List.forall_mem_append.mp inhabited with ⟨inFront, inBack⟩
    exact ⟨⟨front, inFront⟩, ⟨back, inBack⟩, between⟩
  · rintro ⟨⟨front, inFront⟩, ⟨back, inBack⟩, between⟩
    exact ⟨List.pairwise_append.mpr ⟨front, back, between⟩,
      List.forall_mem_append.mpr ⟨inFront, inBack⟩⟩

/-- A span between two lists of which one ends before it and the other begins behind it. -/
theorem gapped_insert (front : Gapped before) (back : Gapped after) (inhabited : 0 < span.size)
    (left : ∀ other ∈ before, other.stop < span.address)
    (right : ∀ other ∈ after, span.stop < other.address) :
    Gapped (before ++ span :: after) := by
  refine gapped_append.mpr ⟨front, gapped_cons.mpr ⟨inhabited, right, back⟩, ?_⟩
  intro other inFront next inRest
  rcases List.mem_cons.mp inRest with rfl | inBack
  · exact left other inFront
  · have step := left other inFront
    have stepAgain := right next inBack
    rw [Span.stop] at stepAgain
    omega

/-- Without one of its spans the list still has its gaps, and that span is apart from the rest. -/
theorem gapped_remove (gapped : Gapped (before ++ span :: after)) :
    Gapped (before ++ after) ∧ ∀ other ∈ before ++ after, span.Apart other := by
  rcases gapped_append.mp gapped with ⟨front, rest, between⟩
  rcases gapped_cons.mp rest with ⟨-, behind, back⟩
  constructor
  · refine gapped_append.mpr ⟨front, back, ?_⟩
    intro left inFront right inBack
    exact between left inFront right (List.mem_cons_of_mem _ inBack)
  · intro other member
    rcases List.mem_append.mp member with inFront | inBack
    · exact .inr (Nat.le_of_lt (between other inFront span List.mem_cons_self))
    · exact .inl (Nat.le_of_lt (behind other inBack))

/-! ## Uniqueness -/

/-- The first span starts at the least address that is covered. -/
theorem Gapped.address_le (gapped : Gapped (span :: spans)) (covers : Covers (span :: spans) address) :
    span.address ≤ address := by
  rcases gapped_cons.mp gapped with ⟨-, behind, -⟩
  rcases covers_cons.mp covers with has | ⟨other, member, has⟩
  · exact has.1
  · have further := behind other member
    rw [Span.stop] at further
    exact Nat.le_trans (by omega) has.1

/-- The address behind the first span is not covered. -/
theorem Gapped.not_covers_stop (gapped : Gapped (span :: spans)) :
    ¬Covers (span :: spans) span.stop := by
  rcases gapped_cons.mp gapped with ⟨-, behind, -⟩
  intro covers
  rcases covers_cons.mp covers with has | ⟨other, member, has⟩
  · exact Nat.lt_irrefl _ has.2
  · exact absurd has.1 (Nat.not_le.mpr (behind other member))

theorem Gapped.head_covered (gapped : Gapped (span :: spans)) :
    Covers (span :: spans) span.address := by
  rcases gapped_cons.mp gapped with ⟨inhabited, -, -⟩
  exact covers_cons.mpr (.inl (Span.has_address inhabited))

theorem Gapped.not_has_of_covers_tail (gapped : Gapped (span :: spans))
    (covers : Covers spans address) : ¬span.Has address := by
  rcases gapped_cons.mp gapped with ⟨-, behind, -⟩
  rcases covers with ⟨other, member, has⟩
  have further := behind other member
  intro hasToo
  exact absurd (Nat.lt_trans hasToo.2 further) (Nat.not_lt.mpr has.1)

theorem Gapped.head_size_le (gapped : Gapped (first :: spans))
    (sameStart : first.address = second.address)
    (same : ∀ address, Covers (first :: spans) address ↔ Covers (second :: others) address) :
    second.size ≤ first.size := by
  by_contra longer
  apply gapped.not_covers_stop
  apply (same first.stop).mpr
  apply covers_cons.mpr
  left
  rw [Span.Has, Span.stop, Span.stop]
  omega

/-- What is covered determines the list. -/
theorem Gapped.eq_of_covers (gapped : Gapped spans) (gappedToo : Gapped others)
    (same : ∀ address, Covers spans address ↔ Covers others address) : spans = others := by
  induction spans generalizing others with
  | nil =>
      cases others with
      | nil => rfl
      | cons head tail => exact absurd ((same head.address).mpr gappedToo.head_covered) covers_nil
  | cons head tail ih =>
      cases others with
      | nil => exact absurd ((same head.address).mp gapped.head_covered) covers_nil
      | cons other rest =>
          have sameStart : head.address = other.address := Nat.le_antisymm
            (gapped.address_le ((same other.address).mpr gappedToo.head_covered))
            (gappedToo.address_le ((same head.address).mp gapped.head_covered))
          have sameSize : head.size = other.size := Nat.le_antisymm
            (gappedToo.head_size_le sameStart.symm fun address => (same address).symm)
            (gapped.head_size_le sameStart same)
          have sameHead : head = other := by
            cases head
            cases other
            cases sameStart
            cases sameSize
            rfl
          subst sameHead
          congr 1
          apply ih (gapped_cons.mp gapped).2.2 (gapped_cons.mp gappedToo).2.2
          intro address
          constructor
          · intro covers
            rcases covers_cons.mp ((same address).mp (covers_cons.mpr (.inr covers))) with has | covered
            · exact absurd has (gapped.not_has_of_covers_tail covers)
            · exact covered
          · intro covers
            rcases covers_cons.mp ((same address).mpr (covers_cons.mpr (.inr covers))) with has | covered
            · exact absurd has (gappedToo.not_has_of_covers_tail covers)
            · exact covered

end MqttAccelero.FreeList
