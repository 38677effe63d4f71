import Mathlib.Data.Fintype.Card
import Mathlib.Data.List.TakeWhile
import MqttAccelero.Lib.Chain
import MqttAccelero.Lib.DeltaQueue
import MqttAccelero.Lib.System

/-!
# Requests in flight

The client has a fixed number of request items. One that is not in use points to
itself; those that wait for an answer of the server are linked in the order they
were sent, each with the time from the expiry of the one in front of it.

A pointer to an item is its index in `req_list`. A callback is given with its
argument, by a number of the caller's.
-/

namespace MqttAccelero.Mqtt

def mqttReqMaxInFlight : ℕ := 4
def mqttReqTimeout : ℕ := 30

/-- A pointer to an item of `req_list`. -/
abbrev RequestPtr := Fin mqttReqMaxInFlight

structure MqttRequest where
  next : Option RequestPtr
  cb : Option ℕ
  pktId : UInt16
  timeoutDiff : UInt16
deriving DecidableEq

/-- `pend_req_queue` and `req_list` of the client. -/
structure Requests where
  pendReqQueue : Option RequestPtr
  reqList : RequestPtr → MqttRequest

namespace Requests

def next (reqs : Requests) (r : RequestPtr) : Option RequestPtr :=
  (reqs.reqList r).next

/-- Write to an item. -/
def set (reqs : Requests) (r : RequestPtr) (item : MqttRequest) : Requests :=
  { reqs with reqList := Function.update reqs.reqList r item }

/-- The items that a loop along the queue passes. -/
def queue (reqs : Requests) : List RequestPtr :=
  Chain.walk reqs.next mqttReqMaxInFlight reqs.pendReqQueue

end Requests

def mqttInitRequests (reqs : Requests) : Requests :=
  { reqs with reqList := fun n => { reqs.reqList n with next := some n } }

def mqttCreateRequest (reqs : Requests) (pktId : UInt16) (cb : Option ℕ) :
    Option (RequestPtr × Requests) :=
  ((List.finRange mqttReqMaxInFlight).find? fun n => reqs.next n = some n).map fun r =>
    (r, reqs.set r { reqs.reqList r with next := none, cb, pktId })

def mqttAppendRequest (reqs : Requests) (r : RequestPtr) : Requests :=
  let timeBefore := (reqs.queue.map fun iter => (reqs.reqList iter).timeoutDiff.toNat).sum
  let head := reqs.queue.getLast?
  let timeoutDiff := UInt16.ofNat (mqttReqTimeout - timeBefore)
  let reqs := reqs.set r { reqs.reqList r with timeoutDiff }
  match head with
  | none => { reqs with pendReqQueue := some r }
  | some head => reqs.set head { reqs.reqList head with next := some r }

def mqttDeleteRequest (reqs : Requests) (r : RequestPtr) : Requests :=
  reqs.set r { reqs.reqList r with next := some r }

def unchain (reqs : Requests) (prev : Option RequestPtr) (iter : RequestPtr) : Requests :=
  match prev with
  | none => { reqs with pendReqQueue := reqs.next iter }
  | some prev => reqs.set prev { reqs.reqList prev with next := reqs.next iter }

/-- The remaining time of the request is added to that of the next one. -/
def addRemaining (reqs : Requests) (iter : RequestPtr) : Requests :=
  match reqs.next iter with
  | none => reqs
  | some next =>
      reqs.set next { reqs.reqList next with
        timeoutDiff := (reqs.reqList next).timeoutDiff + (reqs.reqList iter).timeoutDiff }

/-- The request found, and the queue without it. -/
def mqttTakeRequest (reqs : Requests) (pktId : UInt16) : Requests × Option RequestPtr :=
  match reqs.queue.dropWhile fun iter => (reqs.reqList iter).pktId ≠ pktId with
  | [] => (reqs, none)
  | iter :: _ =>
      let prev := (reqs.queue.takeWhile fun iter => (reqs.reqList iter).pktId ≠ pktId).getLast?
      let reqs := addRemaining (unchain reqs prev iter) iter
      (reqs.set iter { reqs.reqList iter with next := none }, some iter)

/-- The requests afterwards, and the callbacks that are told of a timeout. -/
def requestTimeElapsed : (fuel : ℕ) → Requests → (t : UInt8) → Requests × List (Option ℕ)
  | 0, reqs, _ => (reqs, [])
  | fuel + 1, reqs, t =>
      match reqs.pendReqQueue with
      | none => (reqs, [])
      | some r =>
          if t = 0 then (reqs, [])
          else if (reqs.reqList r).timeoutDiff.toNat ≤ t.toNat then
            let t := t - (reqs.reqList r).timeoutDiff.toUInt8
            let unchained := mqttDeleteRequest { reqs with pendReqQueue := reqs.next r } r
            let (left, expired) := requestTimeElapsed fuel unchained t
            (left, (reqs.reqList r).cb :: expired)
          else
            (reqs.set r { reqs.reqList r with
              timeoutDiff := (reqs.reqList r).timeoutDiff - t.toUInt16 }, [])

/-- Every pass but the last unchains an item. -/
def mqttRequestTimeElapsed (reqs : Requests) (t : UInt8) : Requests × List (Option ℕ) :=
  requestTimeElapsed (mqttReqMaxInFlight + 1) reqs t

def mqttClearRequests (reqs : Requests) : Requests :=
  { reqs.queue.foldl mqttDeleteRequest reqs with pendReqQueue := none }

/-! ## The queue as a list of requests -/

/-- What the caller and the server know a request by. -/
structure Request where
  cb : Option ℕ
  pktId : UInt16
deriving DecidableEq

namespace Requests

def entry (reqs : Requests) (r : RequestPtr) : Request × ℕ :=
  (⟨(reqs.reqList r).cb, (reqs.reqList r).pktId⟩, (reqs.reqList r).timeoutDiff.toNat)

/-- The requests that wait, with the times between their expiries. -/
def waiting (reqs : Requests) : List (Request × ℕ) :=
  reqs.queue.map reqs.entry

/-- The links form one list, and each of its requests expires in time. -/
structure Wf (reqs : Requests) : Prop where
  linked : Chain.Linked reqs.next reqs.pendReqQueue reqs.queue none
  nodup : reqs.queue.Nodup
  inTime : DeltaQueue.total reqs.waiting ≤ mqttReqTimeout

variable {reqs : Requests} {r other : RequestPtr} {item : MqttRequest} {nodes : List RequestPtr}

@[simp]
theorem next_set : (reqs.set r item).next = Function.update reqs.next r item.next := by
  funext other
  simp only [next, set, Function.update_apply]
  split <;> rfl

@[simp]
theorem reqList_set : (reqs.set r item).reqList = Function.update reqs.reqList r item := rfl

theorem entry_set_of_ne (differ : other ≠ r) : (reqs.set r item).entry other = reqs.entry other := by
  simp only [entry, reqList_set, Function.update_of_ne differ]

theorem queue_eq (linked : Chain.Linked reqs.next reqs.pendReqQueue nodes none)
    (nodup : nodes.Nodup) : reqs.queue = nodes := by
  apply Chain.walk_eq linked
  exact nodup.length_le_card.trans (Nat.le_of_eq (Fintype.card_fin _))

theorem waiting_eq (linked : Chain.Linked reqs.next reqs.pendReqQueue nodes none)
    (nodup : nodes.Nodup) : reqs.waiting = nodes.map reqs.entry := by
  rw [waiting, queue_eq linked nodup]

theorem Wf.of_linked (linked : Chain.Linked reqs.next reqs.pendReqQueue nodes none)
    (nodup : nodes.Nodup) (inTime : DeltaQueue.total (nodes.map reqs.entry) ≤ mqttReqTimeout) :
    Wf reqs := by
  have same := queue_eq linked nodup
  exact ⟨same ▸ linked, same ▸ nodup, waiting_eq linked nodup ▸ inTime⟩

/-- An item outside of the queue may be written. -/
theorem Wf.set_of_notMem (wf : Wf reqs) (outside : r ∉ reqs.queue) (item : MqttRequest) :
    Wf (reqs.set r item) ∧ (reqs.set r item).queue = reqs.queue ∧
      (reqs.set r item).waiting = reqs.waiting := by
  have linked : Chain.Linked (reqs.set r item).next (reqs.set r item).pendReqQueue reqs.queue
      none := by
    rw [next_set]
    exact wf.linked.update_of_notMem outside _
  have kept : reqs.queue.map (reqs.set r item).entry = reqs.waiting := by
    apply List.map_congr_left
    intro other member
    exact entry_set_of_ne (ne_of_mem_of_not_mem member outside)
  refine ⟨Wf.of_linked linked wf.nodup (kept ▸ wf.inTime), queue_eq linked wf.nodup, ?_⟩
  rw [waiting_eq linked wf.nodup, kept]

/-- A request in the queue does not point to itself. -/
theorem Wf.next_ne_self (wf : Wf reqs) (member : r ∈ reqs.queue) : reqs.next r ≠ some r := by
  rcases List.append_of_mem member with ⟨before, after, split⟩
  have linked := wf.linked
  have nodup := wf.nodup
  rw [split] at linked nodup
  rcases Chain.linked_append.mp linked with ⟨_, _, _, behind⟩
  rw [behind.head_eq]
  intro own
  have later : r ∈ after := List.mem_of_mem_head? own
  exact (List.nodup_cons.mp (List.nodup_append.mp nodup).2.1).1 later

/-! ### Creating and appending -/

theorem create_spec {after : Requests} {pktId : UInt16} {cb : Option ℕ} (wf : Wf reqs)
    (created : mqttCreateRequest reqs pktId cb = some (r, after)) :
    reqs.next r = some r ∧ r ∉ reqs.queue ∧
      after = reqs.set r { reqs.reqList r with next := none, cb, pktId } := by
  rw [mqttCreateRequest, Option.map_eq_some_iff] at created
  rcases created with ⟨found, isFound, same⟩
  simp only [Prod.mk.injEq] at same
  rcases same with ⟨rfl, rfl⟩
  have unused : reqs.next found = some found := by simpa using List.find?_some isFound
  exact ⟨unused, fun member => wf.next_ne_self member unused, rfl⟩

theorem create_eq_none {pktId : UInt16} {cb : Option ℕ} :
    mqttCreateRequest reqs pktId cb = none ↔ ∀ r, reqs.next r ≠ some r := by
  simp [mqttCreateRequest]

/-- Writing a link changes no request. -/
theorem entry_set_link (target : Option RequestPtr) :
    (reqs.set r { reqs.reqList r with next := target }).entry = reqs.entry := by
  funext other
  by_cases same : other = r
  · rw [same, entry, reqList_set, Function.update_self]
    rfl
  · exact entry_set_of_ne same

/-- The request is the last one, and expires when the full time is over. -/
theorem append_spec (wf : Wf reqs) (outside : r ∉ reqs.queue) (ends : reqs.next r = none) :
    Wf (mqttAppendRequest reqs r) ∧ (mqttAppendRequest reqs r).queue = reqs.queue ++ [r] ∧
      (mqttAppendRequest reqs r).waiting =
        reqs.waiting ++ [((reqs.entry r).1, mqttReqTimeout - DeltaQueue.total reqs.waiting)] := by
  have timeBefore : (reqs.queue.map fun iter => (reqs.reqList iter).timeoutDiff.toNat).sum =
      DeltaQueue.total reqs.waiting := by
    rw [DeltaQueue.total, waiting, List.map_map]
    rfl
  have left : (UInt16.ofNat (mqttReqTimeout - DeltaQueue.total reqs.waiting)).toNat =
      mqttReqTimeout - DeltaQueue.total reqs.waiting := by
    rw [UInt16.toNat_ofNat', mqttReqTimeout]
    omega
  simp only [mqttAppendRequest, timeBefore]
  generalize timed : reqs.set r _ = middle
  have middleWf : Wf middle ∧ middle.queue = reqs.queue ∧ middle.waiting = reqs.waiting := by
    rw [← timed]
    exact wf.set_of_notMem outside _
  have middleEnds : middle.next r = none := by
    rw [← timed, next_set, Function.update_self]
    exact ends
  have last : middle.entry r =
      ((reqs.entry r).1, mqttReqTimeout - DeltaQueue.total reqs.waiting) := by
    rw [← timed, entry, reqList_set, Function.update_self]
    simp only [left]
    rfl
  have nodup : (reqs.queue ++ [r]).Nodup := by
    rw [List.nodup_append_comm]
    exact List.nodup_cons.mpr ⟨outside, wf.nodup⟩
  have entries : (reqs.queue ++ [r]).map middle.entry = reqs.waiting ++
      [((reqs.entry r).1, mqttReqTimeout - DeltaQueue.total reqs.waiting)] := by
    rw [List.map_append, List.map_singleton, last, ← middleWf.2.2, waiting, middleWf.2.1]
  have inTime : DeltaQueue.total ((reqs.queue ++ [r]).map middle.entry) ≤ mqttReqTimeout := by
    rw [entries, DeltaQueue.total_append, DeltaQueue.total_cons, DeltaQueue.total_nil]
    have before := wf.inTime
    omega
  have linked := middleWf.1.linked
  rw [middleWf.2.1] at linked
  have appended := linked.concat wf.nodup outside middleEnds
  cases final : reqs.queue.getLast? with
  | none =>
      simp only [final] at appended ⊢
      exact ⟨Wf.of_linked appended nodup inTime, queue_eq appended nodup,
        (waiting_eq appended nodup).trans entries⟩
  | some head =>
      simp only [final] at appended ⊢
      rw [← @next_set _ _ { middle.reqList head with next := some r }] at appended
      rw [← @entry_set_link _ head (some r)] at entries inTime
      exact ⟨Wf.of_linked appended nodup inTime, queue_eq appended nodup,
        (waiting_eq appended nodup).trans entries⟩

/-- No link outside of the queue is written. -/
theorem append_next (outside : other ∉ reqs.queue) :
    (mqttAppendRequest reqs r).next other = reqs.next other := by
  have timed : ∀ diff : UInt16,
      (reqs.set r { reqs.reqList r with timeoutDiff := diff }).next = reqs.next := by
    intro diff
    rw [next_set]
    exact Function.update_eq_self r reqs.next
  simp only [mqttAppendRequest]
  cases final : reqs.queue.getLast? with
  | none => exact congrFun (timed _) other
  | some head =>
      have away : other ≠ head := fun same => outside (same ▸ List.mem_of_getLast? final)
      simp only [next_set, Function.update_of_ne away]
      exact congrFun (Function.update_eq_self r reqs.next) other

/-! ### Taking -/

theorem take_none {after : Requests} {pktId : UInt16}
    (taken : mqttTakeRequest reqs pktId = (after, none)) :
    after = reqs ∧ ∀ one ∈ reqs.waiting, one.1.pktId ≠ pktId := by
  rw [mqttTakeRequest] at taken
  split at taken
  · rename_i nothing
    refine ⟨(Prod.mk.inj taken).1.symm, ?_⟩
    rw [List.dropWhile_eq_nil_iff] at nothing
    rw [waiting, List.forall_mem_map]
    intro iter member
    simpa [entry] using nothing iter member
  · cases (Prod.mk.inj taken).2

variable {before behind : List RequestPtr}

theorem unchain_spec
    (linked : Chain.Linked reqs.next reqs.pendReqQueue (before ++ r :: behind) none)
    (nodup : (before ++ r :: behind).Nodup) :
    Chain.Linked (unchain reqs before.getLast? r).next (unchain reqs before.getLast? r).pendReqQueue
        (before ++ behind) none ∧
      (unchain reqs before.getLast? r).entry = reqs.entry ∧
      ∀ other ∉ before, (unchain reqs before.getLast? r).next other = reqs.next other := by
  have unlinked := linked.unlink nodup
  cases final : before.getLast? with
  | none =>
      simp only [final] at unlinked
      exact ⟨unlinked, rfl, fun _ _ => rfl⟩
  | some prev =>
      simp only [final] at unlinked
      simp only [unchain]
      refine ⟨?_, entry_set_link _, ?_⟩
      · rw [next_set]
        exact unlinked
      · intro other outside
        rw [next_set, Function.update_of_ne]
        rintro rfl
        exact outside (List.mem_of_getLast? final)

/-- The next request waits longer if the sum does not overflow; the links stay. -/
theorem addRemaining_spec (leads : reqs.next r = behind.head?) (outside : r ∉ behind)
    (nodup : behind.Nodup)
    (small : DeltaQueue.total ((r :: behind).map reqs.entry) < 65536) :
    (addRemaining reqs r).next = reqs.next ∧
      (addRemaining reqs r).pendReqQueue = reqs.pendReqQueue ∧
      (∀ other ∉ behind, (addRemaining reqs r).entry other = reqs.entry other) ∧
      behind.map (addRemaining reqs r).entry =
        DeltaQueue.delay (reqs.entry r).2 (behind.map reqs.entry) := by
  cases behind with
  | nil =>
      rw [addRemaining, leads]
      exact ⟨rfl, rfl, fun _ _ => rfl, rfl⟩
  | cons first rest =>
      rw [addRemaining, leads, List.head?_cons]
      refine ⟨?_, rfl, ?_, ?_⟩
      · rw [next_set]
        exact Function.update_eq_self first reqs.next
      · intro other away
        exact entry_set_of_ne fun same => away (same ▸ List.mem_cons_self)
      · rw [List.map_cons, List.map_cons, DeltaQueue.delay]
        congr 1
        · simp only [List.map_cons, entry, DeltaQueue.total_cons] at small
          simp only [entry, reqList_set, Function.update_self, UInt16.toNat_add]
          rw [Nat.mod_eq_of_lt (by omega)]
        · apply List.map_congr_left
          intro other member
          exact entry_set_of_ne (ne_of_mem_of_not_mem member (List.nodup_cons.mp nodup).1)

/-- A request is unchained; the others expire as before. -/
theorem unchained_spec {middle : Requests} (wf : Wf reqs) (queue : reqs.queue = before ++ r :: behind)
    (unchained : addRemaining (unchain reqs before.getLast? r) r = middle) :
    Wf middle ∧ middle.queue = before ++ behind ∧
      middle.waiting = before.map reqs.entry ++
        DeltaQueue.delay (reqs.entry r).2 (behind.map reqs.entry) ∧
      middle.entry r = reqs.entry r ∧ ∀ other ∉ before, middle.next other = reqs.next other := by
  have linked := wf.linked
  have nodup := wf.nodup
  have inTime := wf.inTime
  rw [waiting] at inTime
  rw [queue] at linked nodup inTime
  rcases unchain_spec linked nodup with ⟨unlinked, entries, links⟩
  have behindNodup := List.nodup_cons.mp (List.nodup_append.mp nodup).2.1
  have apart : r ∉ before := by
    intro member
    exact (List.nodup_append.mp nodup).2.2 r member r List.mem_cons_self rfl
  have leads : (unchain reqs before.getLast? r).next r = behind.head? := by
    rcases Chain.linked_append.mp linked with ⟨_, _, _, rest⟩
    rw [links r apart, rest.head_eq]
  have small : DeltaQueue.total
      ((r :: behind).map (unchain reqs before.getLast? r).entry) < 65536 := by
    rw [entries]
    rw [List.map_append, DeltaQueue.total_append, mqttReqTimeout] at inTime
    omega
  rcases addRemaining_spec leads behindNodup.1 behindNodup.2 small with
    ⟨sameLinks, sameHead, others, delayed⟩
  rw [entries] at others delayed
  rw [← sameLinks, ← sameHead] at unlinked
  rw [unchained] at sameLinks others delayed unlinked
  have nodupLeft : (before ++ behind).Nodup :=
    nodup.sublist (List.Sublist.append_left (List.sublist_cons_self _ _) _)
  have left : (before ++ behind).map middle.entry = before.map reqs.entry ++
      DeltaQueue.delay (reqs.entry r).2 (behind.map reqs.entry) := by
    rw [List.map_append, delayed, List.append_cancel_right_eq]
    apply List.map_congr_left
    intro other member
    exact others other fun both => (List.nodup_append.mp nodupLeft).2.2 _ member _ both rfl
  have inTimeLeft : DeltaQueue.total ((before ++ behind).map middle.entry) ≤ mqttReqTimeout := by
    have delay := @DeltaQueue.total_delay_le _ (behind.map reqs.entry) (reqs.entry r).2
    rw [List.map_append, List.map_cons, DeltaQueue.total_append] at inTime
    rw [left, DeltaQueue.total_append]
    exact Nat.le_trans (Nat.add_le_add_left delay _) inTime
  refine ⟨Wf.of_linked unlinked nodupLeft inTimeLeft, queue_eq unlinked nodupLeft,
    (waiting_eq unlinked nodupLeft).trans left, others r behindNodup.1, ?_⟩
  intro other away
  rw [sameLinks, links other away]

/-- The first request with the identifier is unchained; the others expire as before. -/
theorem take_some {after : Requests} {pktId : UInt16} (wf : Wf reqs)
    (taken : mqttTakeRequest reqs pktId = (after, some r)) : ∃ before behind,
      reqs.queue = before ++ r :: behind ∧ (reqs.entry r).1.pktId = pktId ∧
      (∀ iter ∈ before, (reqs.entry iter).1.pktId ≠ pktId) ∧
      Wf after ∧ after.queue = before ++ behind ∧
      after.waiting = before.map reqs.entry ++
        DeltaQueue.delay (reqs.entry r).2 (behind.map reqs.entry) ∧
      (after.entry r).1 = (reqs.entry r).1 ∧
      ∀ other ∉ reqs.queue, after.next other = reqs.next other := by
  rw [mqttTakeRequest] at taken
  generalize frontIs : reqs.queue.takeWhile _ = before at taken
  split at taken
  · cases (Prod.mk.inj taken).2
  · rename_i iter behind found
    rcases Prod.mk.inj taken with ⟨rfl, isIter⟩
    obtain rfl : iter = r := Option.some.inj isIter
    have queue : reqs.queue = before ++ iter :: behind := by
      rw [← frontIs, ← found, List.takeWhile_append_dropWhile]
    generalize unchained : addRemaining _ iter = middle
    rcases unchained_spec wf queue unchained with
      ⟨middleWf, middleQueue, middleWaiting, entry_eq, links⟩
    have outside : iter ∉ middle.queue := by
      have nodup := wf.nodup
      rw [queue, List.nodup_middle] at nodup
      rw [middleQueue]
      exact (List.nodup_cons.mp nodup).1
    rcases middleWf.set_of_notMem outside { middle.reqList iter with next := none } with
      ⟨afterWf, afterQueue, afterWaiting⟩
    refine ⟨before, behind, queue, ?_, ?_, afterWf, afterQueue.trans middleQueue,
      afterWaiting.trans middleWaiting, ?_, ?_⟩
    · have stopped := List.head?_dropWhile_not
        (fun iter => decide ((reqs.reqList iter).pktId ≠ pktId)) reqs.queue
      rw [found, List.head?_cons] at stopped
      simpa [entry] using stopped
    · intro other member
      rw [← frontIs] at member
      simpa [entry] using List.mem_takeWhile_imp member
    · rw [entry_set_link, entry_eq]
    · intro other away
      rw [queue, List.mem_append, List.mem_cons, not_or, not_or] at away
      rw [next_set, Function.update_of_ne away.2.1, links other away.1]

/-! ### Releasing -/

/-- An item that has left the queue is not in use, and the others are linked as before. -/
def Releases (reqs left : Requests) : Prop :=
  ∀ other ∉ left.queue,
    left.next other = if other ∈ reqs.queue then some other else reqs.next other

theorem delete_spec (wf : Wf reqs) (outside : r ∉ reqs.queue) :
    Wf (mqttDeleteRequest reqs r) ∧ (mqttDeleteRequest reqs r).queue = reqs.queue ∧
      (mqttDeleteRequest reqs r).waiting = reqs.waiting ∧
      (mqttDeleteRequest reqs r).next = Function.update reqs.next r (some r) := by
  rcases wf.set_of_notMem outside { reqs.reqList r with next := some r } with
    ⟨deleted, queue, waiting⟩
  exact ⟨deleted, queue, waiting, next_set⟩

/-- The first request is unchained and its item released. -/
theorem unchain_first {rest : List RequestPtr} (wf : Wf reqs) (split : reqs.queue = r :: rest) :
    Wf (mqttDeleteRequest { reqs with pendReqQueue := reqs.next r } r) ∧
      (mqttDeleteRequest { reqs with pendReqQueue := reqs.next r } r).queue = rest ∧
      (mqttDeleteRequest { reqs with pendReqQueue := reqs.next r } r).waiting =
        rest.map reqs.entry ∧
      (mqttDeleteRequest { reqs with pendReqQueue := reqs.next r } r).next =
        Function.update reqs.next r (some r) := by
  have linked := wf.linked
  have nodup := wf.nodup
  have inTime := wf.inTime
  rw [waiting] at inTime
  rw [split] at linked nodup inTime
  rcases List.nodup_cons.mp nodup with ⟨outside, nodupRest⟩
  have inTimeRest : DeltaQueue.total (rest.map reqs.entry) ≤ mqttReqTimeout :=
    Nat.le_trans (Nat.le_add_left _ _) inTime
  have shortWf : Wf { reqs with pendReqQueue := reqs.next r } :=
    Wf.of_linked linked.2 nodupRest inTimeRest
  have shortQueue : ({ reqs with pendReqQueue := reqs.next r } : Requests).queue = rest :=
    @queue_eq { reqs with pendReqQueue := reqs.next r } _ linked.2 nodupRest
  rcases delete_spec shortWf (shortQueue ▸ outside) with ⟨wfAfter, queueAfter, waitingAfter, links⟩
  refine ⟨wfAfter, queueAfter.trans shortQueue, waitingAfter.trans ?_, links⟩
  exact @waiting_eq { reqs with pendReqQueue := reqs.next r } _ linked.2 nodupRest

/-- The first request may expire earlier. -/
theorem Wf.set_timeoutDiff {rest : List RequestPtr} {diff : UInt16} (wf : Wf reqs)
    (split : reqs.queue = r :: rest) (earlier : diff.toNat ≤ (reqs.entry r).2) :
    Wf (reqs.set r { reqs.reqList r with timeoutDiff := diff }) ∧
      (reqs.set r { reqs.reqList r with timeoutDiff := diff }).queue = reqs.queue ∧
      (reqs.set r { reqs.reqList r with timeoutDiff := diff }).waiting =
        ((reqs.entry r).1, diff.toNat) :: rest.map reqs.entry ∧
      (reqs.set r { reqs.reqList r with timeoutDiff := diff }).next = reqs.next := by
  have nodup := wf.nodup
  have inTime := wf.inTime
  rw [waiting] at inTime
  rw [split, List.map_cons] at inTime
  rw [split] at nodup
  have links : (reqs.set r { reqs.reqList r with timeoutDiff := diff }).next = reqs.next := by
    rw [next_set]
    exact Function.update_eq_self r reqs.next
  have linked := wf.linked
  rw [← links] at linked
  have entries : reqs.queue.map (reqs.set r { reqs.reqList r with timeoutDiff := diff }).entry =
      ((reqs.entry r).1, diff.toNat) :: rest.map reqs.entry := by
    rw [split, List.map_cons]
    congr 1
    · rw [entry, reqList_set, Function.update_self]
      rfl
    · apply List.map_congr_left
      intro other member
      exact entry_set_of_ne (ne_of_mem_of_not_mem member (List.nodup_cons.mp nodup).1)
  have inTimeAfter : DeltaQueue.total (reqs.queue.map
      (reqs.set r { reqs.reqList r with timeoutDiff := diff }).entry) ≤ mqttReqTimeout := by
    rw [entries]
    exact Nat.le_trans (Nat.add_le_add_right earlier _) inTime
  exact ⟨Wf.of_linked linked wf.nodup inTimeAfter, queue_eq linked wf.nodup,
    (waiting_eq linked wf.nodup).trans entries, links⟩

theorem releases_cons {middle left : Requests} {rest : List RequestPtr}
    (queue : reqs.queue = r :: rest) (restQueue : middle.queue = rest)
    (links : middle.next = Function.update reqs.next r (some r))
    (released : Releases middle left) : Releases reqs left := by
  intro other away
  rw [released other away, restQueue, links, queue]
  by_cases same : other = r
  · simp [same]
  · simp [same]

/-- The requests whose time is over are told so, and their items are released. -/
theorem requestTimeElapsed_spec {fuel : ℕ} (wf : Wf reqs) (t : UInt8)
    (enough : reqs.queue.length < fuel) :
    Wf (requestTimeElapsed fuel reqs t).1 ∧
      (requestTimeElapsed fuel reqs t).1.waiting = (DeltaQueue.elapse t.toNat reqs.waiting).2 ∧
      (requestTimeElapsed fuel reqs t).2 =
        (DeltaQueue.elapse t.toNat reqs.waiting).1.map Request.cb ∧
      (requestTimeElapsed fuel reqs t).1.queue <:+ reqs.queue ∧
      Releases reqs (requestTimeElapsed fuel reqs t).1 := by
  have unchanged : Releases reqs reqs := fun other away => (if_neg away).symm
  induction fuel generalizing reqs t with
  | zero => cases enough
  | succ fuel ih =>
      have head := wf.linked.head_eq
      cases queue : reqs.queue with
      | nil =>
          rw [queue, List.head?_nil] at head
          have empty : reqs.waiting = [] := by rw [waiting, queue, List.map_nil]
          simp only [requestTimeElapsed, head, empty, DeltaQueue.elapse_nil, List.map_nil]
          exact ⟨wf, trivial, trivial, queue ▸ List.suffix_refl _, unchanged⟩
      | cons r rest =>
          rw [queue, List.head?_cons] at head
          have waits : reqs.waiting = reqs.entry r :: rest.map reqs.entry := by
            rw [waiting, queue, List.map_cons]
          simp only [requestTimeElapsed, head]
          split
          · rename_i none_left
            rw [none_left, UInt8.toNat_zero, DeltaQueue.elapse_zero]
            exact ⟨wf, rfl, rfl, queue ▸ List.suffix_refl _, unchanged⟩
          · rename_i some_left
            have positive : 0 < t.toNat :=
              Nat.pos_of_ne_zero fun zero => some_left (UInt8.toNat.inj zero)
            rw [waits, entry, DeltaQueue.elapse_cons positive]
            split
            · rename_i due
              have remaining : (t - (reqs.reqList r).timeoutDiff.toUInt8).toNat =
                  t.toNat - (reqs.reqList r).timeoutDiff.toNat := by
                have small := t.toNat_lt
                rw [UInt8.toNat_sub_of_le, UInt16.toNat_toUInt8, Nat.mod_eq_of_lt (by omega)]
                rw [UInt8.le_iff_toNat_le, UInt16.toNat_toUInt8]
                omega
              rcases unchain_first wf queue with ⟨restWf, restQueue, restWaiting, links⟩
              have enoughRest : rest.length < fuel := by
                rw [queue, List.length_cons] at enough
                omega
              rcases ih restWf (t - (reqs.reqList r).timeoutDiff.toUInt8) (restQueue ▸ enoughRest)
                (fun other away => (if_neg away).symm) with
                ⟨leftWf, leftWaiting, told, suffix, released⟩
              rw [restWaiting, remaining] at leftWaiting told
              rw [restQueue] at suffix
              refine ⟨leftWf, leftWaiting, ?_, suffix.trans (List.suffix_cons _ _), ?_⟩
              · rw [told]
                rfl
              · exact releases_cons queue restQueue links released
            · rename_i notDue
              have earlier : ((reqs.reqList r).timeoutDiff - t.toUInt16).toNat =
                  (reqs.reqList r).timeoutDiff.toNat - t.toNat := by
                rw [UInt16.toNat_sub_of_le, UInt8.toNat_toUInt16]
                rw [UInt16.le_iff_toNat_le, UInt8.toNat_toUInt16]
                omega
              rcases wf.set_timeoutDiff queue (earlier ▸ Nat.sub_le _ _) with
                ⟨leftWf, leftQueue, leftWaiting, links⟩
              rw [earlier] at leftWaiting
              refine ⟨leftWf, leftWaiting, rfl, ?_, ?_⟩
              · rw [leftQueue, queue]
              · intro other away
                rw [leftQueue] at away
                rw [links, if_neg away]

theorem Wf.length_queue_le (wf : Wf reqs) : reqs.queue.length ≤ mqttReqMaxInFlight :=
  wf.nodup.length_le_card.trans (Nat.le_of_eq (Fintype.card_fin _))

theorem elapsed_spec (wf : Wf reqs) (t : UInt8) :
    Wf (mqttRequestTimeElapsed reqs t).1 ∧
      (mqttRequestTimeElapsed reqs t).1.waiting = (DeltaQueue.elapse t.toNat reqs.waiting).2 ∧
      (mqttRequestTimeElapsed reqs t).2 =
        (DeltaQueue.elapse t.toNat reqs.waiting).1.map Request.cb ∧
      (mqttRequestTimeElapsed reqs t).1.queue <:+ reqs.queue ∧
      Releases reqs (mqttRequestTimeElapsed reqs t).1 :=
  requestTimeElapsed_spec wf t (Nat.lt_succ_of_le wf.length_queue_le)

theorem next_foldl_delete (nodes : List RequestPtr) (reqs : Requests) (other : RequestPtr) :
    (nodes.foldl mqttDeleteRequest reqs).next other =
      if other ∈ nodes then some other else reqs.next other := by
  induction nodes generalizing reqs with
  | nil => simp
  | cons node rest ih =>
      rw [List.foldl_cons, ih, mqttDeleteRequest, next_set]
      by_cases same : other = node
      · simp [same]
      · simp [same]

theorem Wf.empty (nothing : reqs.pendReqQueue = none) :
    Wf reqs ∧ reqs.queue = [] ∧ reqs.waiting = [] := by
  have linked : Chain.Linked reqs.next reqs.pendReqQueue [] none := nothing
  exact ⟨Wf.of_linked linked List.nodup_nil (Nat.zero_le _), queue_eq linked List.nodup_nil,
    waiting_eq linked List.nodup_nil⟩

theorem clear_spec (reqs : Requests) :
    Wf (mqttClearRequests reqs) ∧ (mqttClearRequests reqs).queue = [] ∧
      (mqttClearRequests reqs).waiting = [] ∧ Releases reqs (mqttClearRequests reqs) := by
  have nothing : (mqttClearRequests reqs).pendReqQueue = none := rfl
  rcases Wf.empty nothing with ⟨wf, queue, waiting⟩
  exact ⟨wf, queue, waiting, fun other _ => next_foldl_delete reqs.queue reqs other⟩

/-- Every item waits or is not in use: none is lost. -/
def Exact (reqs : Requests) : Prop :=
  ∀ r, r ∈ reqs.queue ∨ reqs.next r = some r

theorem Exact.releases {left : Requests} (exact : Exact reqs) (released : Releases reqs left) :
    Exact left := by
  intro r
  by_cases waits : r ∈ left.queue
  · exact Or.inl waits
  · rw [released r waits]
    split
    · exact Or.inr rfl
    · rename_i away
      exact Or.inr ((exact r).resolve_left away)

end Requests

/-! ## Deadlines -/

/-- What the client does with its requests. -/
inductive RequestCall where
  /-- A message is sent if there is room for it in the output. -/
  | submit (pktId : UInt16) (cb : Option ℕ) (room : Bool)
  | answer (pktId : UInt16) (err : ℤ)
  | elapse (t : UInt8)
  | clear
deriving DecidableEq, Repr

def errOk : ℤ := 0
def errTimeout : ℤ := -3

/-- The calls of one callback. -/
def tell (cb : Option ℕ) (err : ℤ) : List (ℕ × ℤ) :=
  (cb.map fun arg => (arg, err)).toList

structure RequestState where
  reqs : Requests
  told : List (ℕ × ℤ)

/-- `mqtt_create_request` as the message functions use it. -/
def submitRequest (reqs : Requests) (pktId : UInt16) (cb : Option ℕ) (room : Bool) : Requests :=
  match mqttCreateRequest reqs pktId cb with
  | none => reqs
  | some (r, reqs) => if room then mqttAppendRequest reqs r else mqttDeleteRequest reqs r

/-- `mqtt_take_request` as the answers of the server use it. -/
def answerRequest (reqs : Requests) (pktId : UInt16) : Requests × Option (Option ℕ) :=
  match mqttTakeRequest reqs pktId with
  | (reqs, none) => (reqs, none)
  | (reqs, some r) => (mqttDeleteRequest reqs r, some (reqs.reqList r).cb)

def requestStep (state : RequestState) : RequestCall → Option RequestState
  | .submit pktId cb room => some { state with reqs := submitRequest state.reqs pktId cb room }
  | .answer pktId err =>
      let (reqs, found) := answerRequest state.reqs pktId
      some ⟨reqs, state.told ++ (found.map fun cb => tell cb err).getD []⟩
  | .elapse t =>
      let (reqs, expired) := mqttRequestTimeElapsed state.reqs t
      some ⟨reqs, state.told ++ expired.flatMap fun cb => tell cb errTimeout⟩
  | .clear => some { state with reqs := mqttClearRequests state.reqs }

def unusedRequests : Requests :=
  mqttInitRequests ⟨none, fun _ => ⟨none, none, 0, 0⟩⟩

def requestSystem : System RequestState RequestCall where
  init := ⟨unusedRequests, []⟩
  step := requestStep

namespace Requests

variable {reqs after : Requests} {pktId : UInt16} {cb : Option ℕ} {room : Bool}

/-- There is an unused item exactly if fewer requests wait than there are items. -/
theorem create_isSome_iff (wf : Wf reqs) (exact : Exact reqs) :
    (mqttCreateRequest reqs pktId cb).isSome ↔ reqs.waiting.length < mqttReqMaxInFlight := by
  rw [waiting, List.length_map]
  constructor
  · intro created
    rcases Option.isSome_iff_exists.mp created with ⟨⟨r, after⟩, created⟩
    have outside := (create_spec wf created).2.1
    have larger : (r :: reqs.queue).length ≤ Fintype.card RequestPtr :=
      List.Nodup.length_le_card (List.nodup_cons.mpr ⟨outside, wf.nodup⟩)
    rw [List.length_cons, Fintype.card_fin] at larger
    exact larger
  · intro few
    rw [Option.isSome_iff_ne_none, ne_eq, create_eq_none]
    intro used
    have all : ∀ r, r ∈ reqs.queue := fun r => (exact r).resolve_right (used r)
    have full : (List.finRange mqttReqMaxInFlight).length ≤ reqs.queue.length :=
      (List.nodup_finRange _).length_le_of_subset fun r _ => all r
    rw [List.length_finRange] at full
    exact Nat.not_lt.mpr full few

theorem submit_spec (wf : Wf reqs) (exact : Exact reqs) :
    Wf (submitRequest reqs pktId cb room) ∧ Exact (submitRequest reqs pktId cb room) ∧
      (submitRequest reqs pktId cb room).waiting =
        if room ∧ reqs.waiting.length < mqttReqMaxInFlight then
          reqs.waiting ++ [(⟨cb, pktId⟩, mqttReqTimeout - DeltaQueue.total reqs.waiting)]
        else reqs.waiting := by
  have room_iff := @create_isSome_iff _ pktId cb wf exact
  rw [submitRequest]
  cases created : mqttCreateRequest reqs pktId cb with
  | none =>
      rw [created, Option.isSome_none] at room_iff
      have full : ¬(room = true ∧ reqs.waiting.length < mqttReqMaxInFlight) :=
        fun both => Bool.false_ne_true (room_iff.mpr both.2)
      exact ⟨wf, exact, (if_neg full).symm⟩
  | some pair =>
      rcases pair with ⟨r, middle⟩
      rw [created, Option.isSome_some] at room_iff
      rcases create_spec wf created with ⟨unused, outside, isMiddle⟩
      rcases wf.set_of_notMem outside { reqs.reqList r with next := none, cb, pktId } with
        ⟨middleWf, queue, waiting⟩
      rw [← isMiddle] at middleWf queue waiting
      have links : middle.next = Function.update reqs.next r none := by rw [isMiddle, next_set]
      rw [← queue] at outside
      cases room with
      | true =>
          simp only [if_true]
          have ends : middle.next r = none := by rw [links, Function.update_self]
          have named : (middle.entry r).1 = ⟨cb, pktId⟩ := by
            rw [isMiddle, entry, reqList_set, Function.update_self]
          rcases append_spec middleWf outside ends with ⟨appended, appendedQueue, appendedWaiting⟩
          rw [named, waiting] at appendedWaiting
          refine ⟨appended, ?_, ?_⟩
          · intro other
            by_cases waits : other ∈ middle.queue ++ [r]
            · exact Or.inl (appendedQueue ▸ waits)
            · rw [List.mem_append, List.mem_singleton, not_or] at waits
              rw [append_next waits.1, links, Function.update_of_ne waits.2]
              exact Or.inr ((exact other).resolve_left (queue ▸ waits.1))
          · rw [if_pos ⟨trivial, room_iff.mp rfl⟩]
            exact appendedWaiting
      | false =>
          simp only [Bool.false_eq_true, if_false, false_and]
          rcases delete_spec middleWf outside with
            ⟨deleted, deletedQueue, deletedWaiting, deletedLinks⟩
          rw [links, Function.update_idem, ← unused, Function.update_eq_self] at deletedLinks
          refine ⟨deleted, ?_, deletedWaiting.trans waiting⟩
          intro other
          rw [deletedQueue, queue, deletedLinks]
          exact exact other

theorem answer_spec (wf : Wf reqs) (exact : Exact reqs) {found : Option (Option ℕ)}
    (answered : answerRequest reqs pktId = (after, found)) :
    Wf after ∧ Exact after ∧ match found with
      | none => after.waiting = reqs.waiting ∧ ∀ one ∈ reqs.waiting, one.1.pktId ≠ pktId
      | some cb => ∃ before delta behind,
          reqs.waiting = before ++ (⟨cb, pktId⟩, delta) :: behind ∧
          (∀ one ∈ before, one.1.pktId ≠ pktId) ∧
          after.waiting = before ++ DeltaQueue.delay delta behind := by
  rw [answerRequest] at answered
  split at answered
  · rename_i left taken
    rcases Prod.mk.inj answered with ⟨rfl, rfl⟩
    rcases take_none taken with ⟨rfl, missing⟩
    exact ⟨wf, exact, rfl, missing⟩
  · rename_i left r taken
    rcases Prod.mk.inj answered with ⟨rfl, rfl⟩
    rcases take_some wf taken with
      ⟨before, behind, queue, matched, others, leftWf, leftQueue, leftWaiting, same, links⟩
    have nodup := wf.nodup
    rw [queue] at nodup
    have outside : r ∉ left.queue := by
      rw [leftQueue]
      exact (List.nodup_middle.mp nodup) |> List.nodup_cons.mp |>.1
    rcases delete_spec leftWf outside with ⟨deleted, deletedQueue, deletedWaiting, deletedLinks⟩
    refine ⟨deleted, ?_, before.map reqs.entry, (reqs.entry r).2, behind.map reqs.entry, ?_, ?_, ?_⟩
    · intro other
      rw [deletedQueue, deletedLinks, leftQueue]
      by_cases own : other = r
      · exact Or.inr (by rw [own, Function.update_self])
      · rw [Function.update_of_ne own]
        by_cases waited : other ∈ reqs.queue
        · rw [queue] at waited
          exact Or.inl (by simpa [own] using waited)
        · rw [links other waited]
          exact Or.inr ((exact other).resolve_left waited)
    · have known : (reqs.entry r).1 = ⟨(left.reqList r).cb, pktId⟩ := by
        rw [← same] at matched ⊢
        rw [← matched]
        rfl
      rw [waiting, queue, List.map_append, List.map_cons, ← known]
    · intro one member
      rcases List.mem_map.mp member with ⟨iter, inFront, rfl⟩
      exact others iter inFront
    · exact deletedWaiting.trans leftWaiting

end Requests

/-- The requests that wait and when each of them expires, in the seconds that have elapsed, and
the callbacks of those that were accepted, of which some were dropped with the queue. -/
structure Deadlines where
  clock : ℕ
  pending : List (Request × ℕ)
  told : List (ℕ × ℤ)
  accepted : List ℕ
  dropped : List ℕ
deriving DecidableEq

def callbacks (pending : List (Request × ℕ)) : List ℕ :=
  pending.flatMap fun one => one.1.cb.toList

def hasId (pktId : UInt16) (one : Request × ℕ) : Bool :=
  decide (one.1.pktId = pktId)

def deadlineStep (state : Deadlines) : RequestCall → Option Deadlines
  | .submit pktId cb room =>
      if room ∧ state.pending.length < mqttReqMaxInFlight then
        some { state with
          pending := state.pending ++ [(⟨cb, pktId⟩, state.clock + mqttReqTimeout)]
          accepted := state.accepted ++ cb.toList }
      else some state
  | .answer pktId err =>
      match state.pending.find? (hasId pktId) with
      | none => some state
      | some one =>
          some { state with
            pending := state.pending.eraseP (hasId pktId)
            told := state.told ++ tell one.1.cb err }
  | .elapse t =>
      let clock := state.clock + t.toNat
      if t = 0 then some state
      else
        let (expired, pending) := DeltaQueue.expire clock state.pending
        some { state with
          clock, pending, told := state.told ++ expired.flatMap fun one => tell one.1.cb errTimeout }
  | .clear =>
      some { state with pending := [], dropped := state.dropped ++ callbacks state.pending }

def deadlineSystem : System Deadlines RequestCall where
  init := ⟨0, [], [], [], []⟩
  step := deadlineStep

/-- The linked items hold the requests of the list, no item is lost, and the times between the
expiries are those between the deadlines. -/
structure Tracks (state : RequestState) (deadlines : Deadlines) : Prop where
  wf : state.reqs.Wf
  exact : state.reqs.Exact
  pending : deadlines.pending = DeltaQueue.deadlines deadlines.clock state.reqs.waiting
  told : deadlines.told = state.told

theorem Tracks.init : Tracks requestSystem.init deadlineSystem.init := by
  rcases @Requests.Wf.empty unusedRequests rfl with ⟨wf, _, waiting⟩
  refine ⟨wf, fun r => Or.inr rfl, ?_, rfl⟩
  change [] = DeltaQueue.deadlines 0 unusedRequests.waiting
  rw [waiting]
  rfl

theorem deadlines_missing {queue : List (Request × ℕ)} {pktId : UInt16} (now : ℕ)
    (missing : ∀ one ∈ queue, one.1.pktId ≠ pktId) :
    ∀ one ∈ DeltaQueue.deadlines now queue, ¬hasId pktId one = true := by
  intro one member
  rcases List.mem_map.mp (DeltaQueue.fst_mem_of_mem_deadlines member) with ⟨other, waits, same⟩
  rw [hasId, decide_eq_true_iff, ← same]
  exact missing other waits

section

variable {state : RequestState} {deadlines : Deadlines} {pktId : UInt16}

theorem Tracks.submit (tracks : Tracks state deadlines) (cb : Option ℕ) (room : Bool) :
    ∃ after, deadlineStep deadlines (.submit pktId cb room) = some after ∧
      Tracks { state with reqs := submitRequest state.reqs pktId cb room } after := by
  rcases @Requests.submit_spec state.reqs pktId cb room tracks.wf tracks.exact with
    ⟨wf, exact, waiting⟩
  rw [deadlineStep, tracks.pending, DeltaQueue.length_deadlines]
  split
  · rename_i accepted
    refine ⟨_, rfl, wf, exact, ?_, tracks.told⟩
    rw [waiting, if_pos accepted]
    exact (DeltaQueue.deadlines_concat tracks.wf.inTime).symm
  · rename_i refused
    refine ⟨_, rfl, wf, exact, ?_, tracks.told⟩
    rw [waiting, if_neg refused]
    exact tracks.pending

/-- The first request with the identifier is answered on both sides. -/
theorem Tracks.answer {reqs : Requests} {found : Option (Option ℕ)} (tracks : Tracks state deadlines)
    (err : ℤ) (answered : answerRequest state.reqs pktId = (reqs, found)) :
    ∃ after, deadlineStep deadlines (.answer pktId err) = some after ∧
      Tracks ⟨reqs, state.told ++ (found.map fun cb => tell cb err).getD []⟩ after := by
  rcases Requests.answer_spec tracks.wf tracks.exact answered with ⟨wf, exact, taken⟩
  rw [deadlineStep, tracks.pending]
  cases found with
  | none =>
      have unfound := List.find?_eq_none.mpr (deadlines_missing deadlines.clock taken.2)
      rw [unfound]
      refine ⟨_, rfl, wf, exact, ?_, ?_⟩
      · rw [taken.1]
        exact tracks.pending
      · exact tracks.told.trans (List.append_nil _).symm
  | some cb =>
      rcases taken with ⟨before, delta, behind, split, others, left⟩
      have missing := deadlines_missing deadlines.clock others
      have unfound := List.find?_eq_none.mpr missing
      have found : hasId pktId
          (⟨cb, pktId⟩, deadlines.clock + DeltaQueue.total before + delta) = true :=
        decide_eq_true rfl
      rw [split, DeltaQueue.deadlines_middle, List.find?_append, unfound, Option.none_or,
        List.find?_cons_of_pos found, List.eraseP_append_right _ missing,
        List.eraseP_cons_of_pos found]
      refine ⟨_, rfl, wf, exact, ?_, congrArg (· ++ tell cb err) tracks.told⟩
      rw [left, DeltaQueue.deadlines_remove]

/-- The requests whose deadlines have passed are those whose times are over. -/
theorem Tracks.elapse (tracks : Tracks state deadlines) (t : UInt8) :
    ∃ after, deadlineStep deadlines (.elapse t) = some after ∧
      Tracks ⟨(mqttRequestTimeElapsed state.reqs t).1, state.told ++
        (mqttRequestTimeElapsed state.reqs t).2.flatMap fun cb => tell cb errTimeout⟩ after := by
  rcases Requests.elapsed_spec tracks.wf t with ⟨wf, waiting, told, _, released⟩
  by_cases nothing : t = 0
  · simp only [deadlineStep, if_pos nothing]
    rw [nothing, UInt8.toNat_zero, DeltaQueue.elapse_zero] at waiting told
    refine ⟨_, rfl, wf, tracks.exact.releases released, ?_, ?_⟩
    · rw [nothing, waiting]
      exact tracks.pending
    · rw [nothing, told]
      exact tracks.told.trans (List.append_nil _).symm
  · simp only [deadlineStep, if_neg nothing]
    have positive : 0 < t.toNat :=
      Nat.pos_of_ne_zero fun zero => nothing (UInt8.toNat.inj zero)
    have expired := DeltaQueue.expire_deadlines positive state.reqs.waiting deadlines.clock
    rw [← tracks.pending] at expired
    refine ⟨_, rfl, wf, tracks.exact.releases released, ?_, ?_⟩
    · rw [waiting]
      exact expired.2
    · rw [told, ← expired.1, List.flatMap_map, List.flatMap_map, tracks.told]

theorem Tracks.clear (tracks : Tracks state deadlines) :
    ∃ after, deadlineStep deadlines .clear = some after ∧
      Tracks { state with reqs := mqttClearRequests state.reqs } after := by
  rcases Requests.clear_spec state.reqs with ⟨wf, _, waiting, released⟩
  refine ⟨_, rfl, wf, tracks.exact.releases released, ?_, tracks.told⟩
  rw [waiting]
  rfl

theorem Tracks.step {next : RequestState} {call : RequestCall} (tracks : Tracks state deadlines)
    (stepped : requestStep state call = some next) :
    ∃ after, deadlineStep deadlines call = some after ∧ Tracks next after := by
  cases call with
  | submit pktId cb room =>
      cases stepped
      exact tracks.submit cb room
  | answer pktId err =>
      rw [requestStep, Option.some.injEq] at stepped
      subst stepped
      exact tracks.answer err rfl
  | elapse t =>
      rw [requestStep, Option.some.injEq] at stepped
      subst stepped
      exact tracks.elapse t
  | clear =>
      cases stepped
      exact tracks.clear

end

/-- Each accepted request waits, was told about once, or was dropped with the queue. -/
def Deadlines.Accounted (state : Deadlines) : Prop :=
  state.accepted.Perm (state.told.map Prod.fst ++ callbacks state.pending ++ state.dropped)

theorem callbacks_append (first second : List (Request × ℕ)) :
    callbacks (first ++ second) = callbacks first ++ callbacks second :=
  List.flatMap_append

theorem map_fst_tell (cb : Option ℕ) (err : ℤ) : (tell cb err).map Prod.fst = cb.toList := by
  cases cb <;> rfl

theorem map_fst_flatMap_tell (expired : List (Request × ℕ)) (err : ℤ) :
    (expired.flatMap fun one => tell one.1.cb err).map Prod.fst = callbacks expired := by
  rw [List.map_flatMap, callbacks]
  simp only [map_fst_tell]

theorem accounted_iff {state : Deadlines} : state.Accounted ↔ ∀ arg,
    state.accepted.count arg = (state.told.map Prod.fst).count arg +
      (callbacks state.pending).count arg + state.dropped.count arg := by
  simp only [Deadlines.Accounted, List.perm_iff_count, List.count_append]

theorem Deadlines.Accounted.step {state next : Deadlines} {call : RequestCall}
    (accounted : state.Accounted) (stepped : deadlineStep state call = some next) :
    next.Accounted := by
  rw [accounted_iff] at accounted ⊢
  intro arg
  have here := accounted arg
  cases call with
  | submit pktId cb room =>
      rw [deadlineStep] at stepped
      split at stepped
      · cases stepped
        have one : callbacks [(⟨cb, pktId⟩, state.clock + mqttReqTimeout)] = cb.toList := by
          simp [callbacks]
        simp only [callbacks_append, one, List.count_append]
        omega
      · cases stepped
        exact here
  | answer pktId err =>
      rw [deadlineStep] at stepped
      split at stepped
      · cases stepped
        exact here
      · rename_i one found
        cases stepped
        rcases List.find?_eq_some_iff_append.mp found with ⟨matched, before, after, split, others⟩
        have missing : ∀ one ∈ before, ¬hasId pktId one = true := by simpa using others
        have one_callbacks : callbacks [one] = one.1.cb.toList := by simp [callbacks]
        have left : state.pending.eraseP (hasId pktId) = before ++ after := by
          rw [split, List.eraseP_append_right _ missing, List.eraseP_cons_of_pos matched]
        rw [split, List.append_cons before one after] at here
        simp only [left, callbacks_append, one_callbacks, List.map_append, map_fst_tell,
          List.count_append] at here ⊢
        omega
  | elapse t =>
      by_cases nothing : t = 0
      · simp only [deadlineStep, if_pos nothing, Option.some.injEq] at stepped
        exact stepped ▸ here
      · simp only [deadlineStep, if_neg nothing, Option.some.injEq] at stepped
        subst stepped
        have split := (DeltaQueue.expire_spec (state.clock + t.toNat) state.pending).1
        rw [← split, callbacks_append, List.count_append] at here
        simp only [List.map_append, map_fst_flatMap_tell, List.count_append]
        omega
  | clear =>
      cases stepped
      simp only [List.count_append]
      rw [show callbacks [] = [] from rfl, List.count_nil]
      omega

/-- The items linked with relative times behave as a list of requests with deadlines: each of
them is told about once at most, and none waits for longer than the full time. -/
theorem requests_refine_deadlines {calls : List RequestCall} {final : RequestState}
    (ran : requestSystem.run calls = some final) :
    ∃ deadlines, deadlineSystem.run calls = some deadlines ∧ Tracks final deadlines ∧
      deadlines.Accounted ∧ ∀ one ∈ deadlines.pending,
        deadlines.clock ≤ one.2 ∧ one.2 ≤ deadlines.clock + mqttReqTimeout := by
  rcases @System.simulation _ _ requestSystem _ _ deadlineSystem (fun _ call => call) Tracks
    (fun _ _ _ _ => Tracks.step) _ _ _ _ Tracks.init ran with ⟨deadlines, mirrored, tracks⟩
  rw [System.mirror_self ran] at mirrored
  refine ⟨deadlines, mirrored, tracks, ?_, ?_⟩
  · have start : deadlineSystem.init.Accounted := List.Perm.refl []
    exact System.invariant Deadlines.Accounted (fun _ _ _ => Deadlines.Accounted.step) start
      mirrored
  · intro one waits
    rw [tracks.pending] at waits
    have bound := DeltaQueue.deadlines_bound waits
    have inTime := tracks.wf.inTime
    omega

/-- Three requests, of which the second is answered and the others expire. -/
def partlyAnswered : List RequestCall :=
  [.submit 1 (some 10) true, .elapse 5, .submit 2 (some 20) true, .submit 3 (some 30) true,
    .answer 2 errOk, .elapse 25, .elapse 5]

theorem partlyAnswered_enabled : (requestSystem.run partlyAnswered).isSome := by decide +kernel

theorem requests_refine_deadlines_partlyAnswered :
    ∃ deadlines, deadlineSystem.run partlyAnswered = some deadlines ∧
      Tracks (requestSystem.final partlyAnswered partlyAnswered_enabled) deadlines ∧
      deadlines.Accounted ∧ ∀ one ∈ deadlines.pending,
        deadlines.clock ≤ one.2 ∧ one.2 ≤ deadlines.clock + mqttReqTimeout :=
  requests_refine_deadlines (System.run_final partlyAnswered_enabled)

example : (deadlineSystem.run partlyAnswered).map Deadlines.told =
    some [(20, errOk), (10, errTimeout), (30, errTimeout)] := by decide +kernel

end MqttAccelero.Mqtt
