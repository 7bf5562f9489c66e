/-!
# Ordered sets

Finite sets kept as strictly increasing lists.
-/

namespace ProofOutline.OrderedSet

variable {α : Type} [LT α] [DecidableLT α]

def insert (x : α) : List α → List α
  | [] => [x]
  | y :: rest =>
      if x < y then x :: y :: rest
      else if y < x then y :: insert x rest
      else y :: rest

def ofList (elements : List α) : List α :=
  elements.foldr insert []

section Members

variable (total : ∀ x y : α, ¬x < y → ¬y < x → x = y)

include total

@[simp] theorem mem_insert (x y : α) (elements : List α) :
    y ∈ insert x elements ↔ y = x ∨ y ∈ elements := by
  induction elements with
  | nil => simp [insert]
  | cons first rest ih =>
      unfold insert
      split
      case isTrue => simp
      case isFalse notBelow =>
        split
        case isTrue => simp [ih, or_left_comm]
        case isFalse notAbove => simp [total x first notBelow notAbove]

@[simp] theorem mem_ofList (x : α) (elements : List α) :
    x ∈ ofList elements ↔ x ∈ elements := by
  induction elements with
  | nil => simp [ofList]
  | cons first rest ih =>
      rw [ofList, List.foldr_cons, mem_insert total]
      simp [← ih, ofList]

private theorem pairwise_insert (trans : ∀ {x y z : α}, x < y → y < z → x < z)
    (x : α) {elements : List α} (h : elements.Pairwise (· < ·)) :
    (insert x elements).Pairwise (· < ·) := by
  induction elements with
  | nil => simp [insert]
  | cons first rest ih =>
      obtain ⟨above, tail⟩ := List.pairwise_cons.mp h
      unfold insert
      split
      case isTrue below =>
        refine List.pairwise_cons.mpr ⟨fun y mem => ?_, h⟩
        rcases List.mem_cons.mp mem with rfl | mem
        · exact below
        · exact trans below (above y mem)
      case isFalse =>
        split
        case isTrue below =>
          refine List.pairwise_cons.mpr ⟨fun y mem => ?_, ih tail⟩
          rcases (mem_insert total x y rest).mp mem with rfl | mem
          · exact below
          · exact above y mem
        case isFalse => exact h

theorem pairwise_ofList (trans : ∀ {x y z : α}, x < y → y < z → x < z)
    (elements : List α) : (ofList elements).Pairwise (· < ·) := by
  induction elements with
  | nil => exact .nil
  | cons first rest ih => exact pairwise_insert total trans first ih

theorem nodup_ofList (trans : ∀ {x y z : α}, x < y → y < z → x < z)
    (irrefl : ∀ x : α, ¬ x < x) (elements : List α) :
    (ofList elements).Nodup := by
  refine (pairwise_ofList total trans elements).imp fun less same => ?_
  rw [same] at less
  exact irrefl _ less

end Members

end ProofOutline.OrderedSet
