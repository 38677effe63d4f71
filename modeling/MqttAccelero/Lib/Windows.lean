import Mathlib.Data.List.Basic
import Mathlib.Data.List.Infix
import MqttAccelero.Lib.System

/-!
# Windows in a shared trace

Several owners act on one trace. A window of an owner is a run of acts with no
act of anybody else between them, from an opening act to a closing one. An owner
whose opening act is missing, or is followed by somebody else's act before the
closing one, has no window and cannot get one by acts that do not open again.
-/

namespace MqttAccelero.Windows

universe u v

variable {Act : Type u} {Owner : Type v} {owner : Act → Owner}
  {trace body : List Act} {opening closing : Act}

/-- The window from `opening` to `closing` can no longer be whole. -/
inductive Cut (owner : Act → Owner) (trace : List Act) (opening closing : Act) : Prop where
  | never (absent : opening ∉ trace)
  | inside (before mine rest : List Act) (foreign : Act)
      (shape : trace = before ++ opening :: (mine ++ foreign :: rest))
      (first : opening ∉ before) (last : opening ∉ mine ++ foreign :: rest)
      (unclosed : closing ∉ mine) (other : owner foreign ≠ owner opening)

theorem Cut.append (cut : Cut owner trace opening closing) {acts : List Act}
    (opened : opening ∉ acts) : Cut owner (trace ++ acts) opening closing := by
  cases cut with
  | never absent =>
      apply Cut.never
      intro member
      rcases List.mem_append.mp member with before | now
      · exact absent before
      · exact opened now
  | inside before mine rest foreign shape first last unclosed other =>
      refine .inside before mine (rest ++ acts) foreign ?_ first ?_ unclosed other
      · simp [shape]
      · intro member
        apply last
        simp only [List.mem_append, List.mem_cons] at member ⊢
        tauto

theorem Cut.of_foreign {before mine : List Act} {foreign : Act}
    (shape : trace = before ++ opening :: mine) (first : opening ∉ before)
    (last : opening ∉ mine) (unclosed : closing ∉ mine) (other : owner foreign ≠ owner opening) :
    Cut owner (trace ++ [foreign]) opening closing := by
  refine .inside before mine [] foreign ?_ first ?_ unclosed other
  · simp [shape]
  · intro member
    rcases List.mem_append.mp member with mineToo | isForeign
    · exact last mineToo
    · exact other (congrArg owner (List.mem_singleton.mp isForeign)).symm

theorem Cut.not_infix (cut : Cut owner trace opening closing)
    (owned : ∀ act ∈ body ++ [closing], owner act = owner opening) :
    ¬opening :: (body ++ [closing]) <:+: trace := by
  rintro ⟨before, after, shape⟩
  cases cut with
  | never absent =>
      apply absent
      rw [← shape]
      simp
  | inside start mine rest foreign cutShape first last unclosed other =>
      have same : start ++ opening :: (mine ++ foreign :: rest) =
          before ++ opening :: (body ++ [closing] ++ after) := by
        rw [← cutShape, ← shape]
        simp
      have tails := ((List.append_cons_inj_of_notMem first last).mp same).2.2
      rcases List.append_eq_append_iff.mp tails with ⟨middle, whole, remains⟩ | ⟨middle, whole, -⟩
      · cases middle with
        | nil =>
            apply unclosed
            rw [List.append_nil] at whole
            rw [← whole]
            exact List.mem_append_right _ List.mem_cons_self
        | cons act middle =>
            cases remains
            apply other
            apply owned
            rw [whole]
            exact List.mem_append_right _ List.mem_cons_self
      · apply unclosed
        rw [whole]
        simp

end MqttAccelero.Windows
