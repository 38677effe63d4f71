import Mathlib.Algebra.BigOperators.Group.List.Basic
import Mathlib.Algebra.GroupWithZero.Nat
import Mathlib.Data.List.Basic

/-!
# Queues of differences

A queue of things to expire, each with the time from the expiry of the one in
front of it. What counts is when each of them expires; a later time does not
change with those in front when the differences are kept right.
-/

namespace MqttAccelero.DeltaQueue

universe u

variable {Entry : Type u}

/-- The time from now until the last one expires. -/
def total (queue : List (Entry × ℕ)) : ℕ :=
  (queue.map Prod.snd).sum

/-- When each of the queue expires. -/
def deadlines (now : ℕ) : List (Entry × ℕ) → List (Entry × ℕ)
  | [] => []
  | (entry, delta) :: rest => (entry, now + delta) :: deadlines (now + delta) rest

/-- The first one waits longer. -/
def delay (time : ℕ) : List (Entry × ℕ) → List (Entry × ℕ)
  | [] => []
  | (entry, delta) :: rest => (entry, delta + time) :: rest

/-- Those that expire when time elapses, and those that stay. Once the time is used up the
rest of the queue is not looked at. -/
def elapse : (time : ℕ) → List (Entry × ℕ) → List Entry × List (Entry × ℕ)
  | _, [] => ([], [])
  | 0, queue => ([], queue)
  | time + 1, (entry, delta) :: rest =>
      if delta ≤ time + 1 then
        (entry :: (elapse (time + 1 - delta) rest).1, (elapse (time + 1 - delta) rest).2)
      else ([], (entry, delta - (time + 1)) :: rest)

/-- What expires at a time, by the deadlines: all that was due before it, and the first that is
due at it. -/
def expire (now : ℕ) : List (Entry × ℕ) → List (Entry × ℕ) × List (Entry × ℕ)
  | [] => ([], [])
  | (entry, deadline) :: rest =>
      if deadline < now then ((entry, deadline) :: (expire now rest).1, (expire now rest).2)
      else if deadline = now then ([(entry, deadline)], rest)
      else ([], (entry, deadline) :: rest)

variable {queue before after : List (Entry × ℕ)} {entry : Entry} {now delta limit time : ℕ}

@[simp]
theorem total_nil : total ([] : List (Entry × ℕ)) = 0 := rfl

@[simp]
theorem total_cons : total ((entry, delta) :: queue) = delta + total queue := rfl

@[simp]
theorem total_append : total (before ++ after) = total before + total after := by
  simp [total]

@[simp]
theorem deadlines_nil : deadlines now ([] : List (Entry × ℕ)) = [] := rfl

@[simp]
theorem deadlines_cons : deadlines now ((entry, delta) :: queue) =
    (entry, now + delta) :: deadlines (now + delta) queue := rfl

@[simp]
theorem delay_cons : delay time ((entry, delta) :: queue) = (entry, delta + time) :: queue := rfl

theorem expire_cons {deadline : ℕ} : expire now ((entry, deadline) :: queue) =
    if deadline < now then ((entry, deadline) :: (expire now queue).1, (expire now queue).2)
    else if deadline = now then ([(entry, deadline)], queue)
    else ([], (entry, deadline) :: queue) := rfl

theorem deadlines_append : deadlines now (before ++ after) =
    deadlines now before ++ deadlines (now + total before) after := by
  induction before generalizing now with
  | nil => rfl
  | cons head rest ih =>
      rw [List.cons_append, deadlines_cons, ih, deadlines_cons, total_cons, Nat.add_assoc,
        List.cons_append]

/-- What is put behind the others expires when it shall if they expire before it. -/
theorem deadlines_concat (earlier : total queue ≤ limit) :
    deadlines now (queue ++ [(entry, limit - total queue)]) =
      deadlines now queue ++ [(entry, now + limit)] := by
  rw [deadlines_append, deadlines_cons, deadlines_nil, Nat.add_assoc, Nat.add_sub_of_le earlier]

theorem deadlines_middle : deadlines now (before ++ (entry, delta) :: after) =
    deadlines now before ++ (entry, now + total before + delta) ::
      deadlines (now + total before + delta) after := by
  rw [deadlines_append, deadlines_cons]

theorem deadlines_delay : deadlines now (delay delta queue) = deadlines (now + delta) queue := by
  cases queue with
  | nil => rfl
  | cons head rest =>
      rw [delay_cons, deadlines_cons, deadlines_cons, Nat.add_comm head.2, Nat.add_assoc]

/-- What is taken out leaves the others as they are if the next one waits for it. -/
theorem deadlines_remove : deadlines now (before ++ delay delta after) =
    deadlines now before ++ deadlines (now + total before + delta) after := by
  rw [deadlines_append, deadlines_delay]

theorem total_delay_le : total (delay delta queue) ≤ delta + total queue := by
  cases queue with
  | nil => exact Nat.zero_le _
  | cons head rest =>
      rw [delay_cons, total_cons, total_cons]
      omega

@[simp]
theorem map_fst_deadlines : (deadlines now queue).map Prod.fst = queue.map Prod.fst := by
  induction queue generalizing now with
  | nil => rfl
  | cons head rest ih => rw [deadlines_cons, List.map_cons, List.map_cons, ih]

@[simp]
theorem length_deadlines : (deadlines now queue).length = queue.length := by
  rw [← List.length_map Prod.fst, map_fst_deadlines, List.length_map]

/-- A deadline is one of an entry of the queue. -/
theorem fst_mem_of_mem_deadlines {one : Entry × ℕ} (member : one ∈ deadlines now queue) :
    one.1 ∈ queue.map Prod.fst := by
  rw [← @map_fst_deadlines _ queue now]
  exact List.mem_map_of_mem member

theorem deadlines_bound {expiry : ℕ} (member : (entry, expiry) ∈ deadlines now queue) :
    now ≤ expiry ∧ expiry ≤ now + total queue := by
  induction queue generalizing now with
  | nil => cases member
  | cons head rest ih =>
      rw [deadlines_cons, List.mem_cons, Prod.mk.injEq] at member
      rw [total_cons]
      rcases member with ⟨_, rfl⟩ | later
      · omega
      · have bound := ih later
        omega

theorem elapse_nil : elapse time ([] : List (Entry × ℕ)) = ([], []) := by
  cases time <;> rfl

theorem elapse_cons (positive : 0 < time) : elapse time ((entry, delta) :: queue) =
    if delta ≤ time then
      (entry :: (elapse (time - delta) queue).1, (elapse (time - delta) queue).2)
    else ([], (entry, delta - time) :: queue) := by
  cases time with
  | zero => cases positive
  | succ time => rfl

theorem elapse_zero : elapse 0 queue = ([], queue) := by
  cases queue <;> rfl

/-- The queue expires as its deadlines say. -/
theorem expire_deadlines (positive : 0 < time) (queue : List (Entry × ℕ)) (now : ℕ) :
    (expire (now + time) (deadlines now queue)).1.map Prod.fst = (elapse time queue).1 ∧
      (expire (now + time) (deadlines now queue)).2 =
        deadlines (now + time) (elapse time queue).2 := by
  induction queue generalizing time now with
  | nil =>
      rw [elapse_nil]
      exact ⟨rfl, rfl⟩
  | cons head rest ih =>
      rcases head with ⟨entry, delta⟩
      rw [elapse_cons positive, deadlines_cons, expire_cons]
      rcases Nat.lt_trichotomy delta time with before | rfl | later
      · have ended := @ih (time - delta) (by omega) (now + delta)
        rw [Nat.add_assoc, Nat.add_sub_of_le (Nat.le_of_lt before)] at ended
        rw [if_pos (Nat.add_lt_add_left before now), if_pos (Nat.le_of_lt before), List.map_cons,
          ended.1]
        exact ⟨rfl, ended.2⟩
      · rw [if_neg (Nat.lt_irrefl _), if_pos rfl, if_pos (Nat.le_refl _), Nat.sub_self, elapse_zero]
        exact ⟨rfl, rfl⟩
      · have kept : now + time + (delta - time) = now + delta := by omega
        rw [if_neg (by omega), if_neg (by omega), if_neg (by omega), deadlines_cons, kept]
        exact ⟨rfl, rfl⟩

theorem expire_spec (now : ℕ) (pending : List (Entry × ℕ)) :
    (expire now pending).1 ++ (expire now pending).2 = pending ∧
      ∀ one ∈ (expire now pending).1, one.2 ≤ now := by
  induction pending with
  | nil => exact ⟨rfl, fun _ => nofun⟩
  | cons head rest ih =>
      rw [expire_cons]
      split
      · rename_i before
        refine ⟨congrArg _ ih.1, ?_⟩
        intro one member
        rcases List.mem_cons.mp member with rfl | later
        · exact Nat.le_of_lt before
        · exact ih.2 one later
      · split
        · rename_i same
          refine ⟨rfl, ?_⟩
          intro one member
          rw [List.mem_singleton.mp member]
          exact Nat.le_of_eq same
        · exact ⟨rfl, fun _ => nofun⟩

end MqttAccelero.DeltaQueue
