import Mathlib.Data.List.Nodup
import Mathlib.Logic.Function.Basic

/-!
# Linked lists

Nodes are linked by a function to the next one. `Linked` says which nodes a list
passes, so that what is done to the links is seen as what happens to a list of
nodes; nodes outside of it may be linked in any way.
-/

namespace MqttAccelero.Chain

universe u

variable {Node : Type u}

/-- The links lead from `head` through `nodes` to `last`. -/
def Linked (next : Node → Option Node) : Option Node → List Node → Option Node → Prop
  | head, [], last => head = last
  | head, node :: rest, last => head = some node ∧ Linked next (next node) rest last

/-- The nodes met from `head` on, `fuel` of them at most. -/
def walk (next : Node → Option Node) : (fuel : ℕ) → Option Node → List Node
  | 0, _ => []
  | _ + 1, none => []
  | fuel + 1, some node => node :: walk next fuel (next node)

variable {next other : Node → Option Node} {head last : Option Node} {node : Node}
  {nodes before after : List Node}

@[simp]
theorem linked_nil : Linked next head [] last ↔ head = last := Iff.rfl

@[simp]
theorem linked_cons {rest : List Node} : Linked next head (node :: rest) last ↔
    head = some node ∧ Linked next (next node) rest last := Iff.rfl

theorem walk_eq {fuel : ℕ} (linked : Linked next head nodes none) (enough : nodes.length ≤ fuel) :
    walk next fuel head = nodes := by
  induction nodes generalizing head fuel with
  | nil =>
      rw [show head = none from linked]
      cases fuel <;> rfl
  | cons node rest ih =>
      cases fuel with
      | zero => cases enough
      | succ fuel =>
          rw [linked.1]
          exact congrArg (node :: ·) (ih linked.2 (Nat.le_of_succ_le_succ enough))

theorem linked_append : Linked next head (before ++ after) last ↔
    ∃ middle, Linked next head before middle ∧ Linked next middle after last := by
  induction before generalizing head with
  | nil => simp
  | cons node rest ih => simp [ih, and_assoc]

theorem Linked.head_eq (linked : Linked next head nodes none) : head = nodes.head? := by
  cases nodes with
  | nil => exact linked
  | cons node rest => exact linked.1

/-- Only the links of the nodes that are passed matter. -/
theorem Linked.congr (linked : Linked next head nodes last)
    (agree : ∀ node ∈ nodes, other node = next node) : Linked other head nodes last := by
  induction nodes generalizing head with
  | nil => exact linked
  | cons node rest ih =>
      refine ⟨linked.1, ?_⟩
      rw [agree node List.mem_cons_self]
      exact ih linked.2 fun later member => agree later (List.mem_cons_of_mem _ member)

variable [DecidableEq Node]

theorem Linked.update_of_notMem (linked : Linked next head nodes last) (outside : node ∉ nodes)
    (target : Option Node) : Linked (Function.update next node target) head nodes last := by
  apply linked.congr
  intro other member
  exact Function.update_of_ne (ne_of_mem_of_not_mem member outside) _ _

/-- Where the links lead after a node is what its link says. -/
theorem Linked.relink (linked : Linked next head (before ++ [node]) last)
    (nodup : (before ++ [node]).Nodup) (target : Option Node) :
    Linked (Function.update next node target) head (before ++ [node]) target := by
  rcases linked_append.mp linked with ⟨middle, front, here⟩
  have outside : node ∉ before := by
    have disjoint := (List.nodup_append.mp nodup).2.2
    intro member
    exact disjoint node member node List.mem_cons_self rfl
  refine linked_append.mpr ⟨middle, front.update_of_notMem outside target, here.1, ?_⟩
  rw [Function.update_self]
  rfl

/-- A node whose link ends the list is linked behind the last one. -/
theorem Linked.concat (linked : Linked next head nodes none) (nodup : nodes.Nodup)
    (outside : node ∉ nodes) (ends : next node = none) :
    match nodes.getLast? with
    | none => Linked next (some node) (nodes ++ [node]) none
    | some final => Linked (Function.update next final (some node)) head (nodes ++ [node]) none := by
  rcases List.eq_nil_or_concat nodes with rfl | ⟨front, final, rfl⟩
  · exact ⟨rfl, ends⟩
  · rw [List.concat_eq_append] at *
    rw [List.getLast?_concat]
    have different : node ≠ final := fun same => outside (by simp [same])
    refine linked_append.mpr ⟨some node, linked.relink nodup (some node), rfl, ?_⟩
    rw [Function.update_of_ne different, ends]
    rfl

/-- The node in front of another one is linked to what follows that one. -/
theorem Linked.unlink (linked : Linked next head (before ++ node :: after) none)
    (nodup : (before ++ node :: after).Nodup) :
    match before.getLast? with
    | none => Linked next (next node) (before ++ after) none
    | some previous =>
        Linked (Function.update next previous (next node)) head (before ++ after) none := by
  rcases linked_append.mp linked with ⟨middle, front, _, behind⟩
  rcases List.eq_nil_or_concat before with rfl | ⟨earlier, previous, rfl⟩
  · exact behind
  · rw [List.concat_eq_append] at *
    rw [List.getLast?_concat]
    have parts := List.nodup_append.mp nodup
    have outside : previous ∉ after := by
      intro member
      exact parts.2.2 previous (by simp) previous (List.mem_cons_of_mem _ member) rfl
    exact linked_append.mpr ⟨next node, front.relink parts.1 (next node),
      behind.update_of_notMem outside _⟩

end MqttAccelero.Chain
