import MqttAccelero.Usb.Control

/-!
# What the data stages send

The configured device answers a class request with an IN data stage from `data`,
as many bytes as the host asks for. Two sessions with the same requests are
compared which start on blocks of different contents.

A request comes with all that the host does in it: the bytes of its OUT data
stage, of which the device takes as many as announced, and whether the stage runs
to its end.
-/

namespace MqttAccelero.Usb.Control

open Memory

structure Request where
  bmRequest : UInt8
  bRequest : UInt8
  wLength : UInt16
  outData : List UInt8
  completes : Bool
deriving DecidableEq, Repr

namespace Request

/-- The request has an IN data stage. -/
def IsIn (request : Request) : Prop :=
  request.wLength ≠ 0 ∧ request.bmRequest &&& 0x80 ≠ 0

instance (request : Request) : Decidable request.IsIn :=
  inferInstanceAs (Decidable (_ ∧ _))

/-- The packets of an OUT data stage are stored one behind the other, from the start of `data`,
and at the end of the stage the request is passed on. -/
def receive (request : Request) (block : Block) (length : ℕ) : Block :=
  let block := store block Field.data.offset (request.outData.take length)
  if request.completes then
    match usbdCdcEcmEp0RxReady block with
    | some done => done.block
    | none => block
  else block

/-- The block after the request. -/
def serve (request : Request) (block : Block) : Block :=
  let done := usbdCdcEcmSetupClass block request.bmRequest request.bRequest request.wLength
  match done.receives with
  | some length => request.receive done.block length
  | none => done.block

/-- The bytes sent in the IN data stage, if there is one. -/
def answer (request : Request) (block : Block) : Option (List UInt8) :=
  (usbdCdcEcmSetupClass block request.bmRequest request.bRequest request.wLength).sends

/-- The number of bytes that the OUT data stage brings. -/
def brings (request : Request) : ℕ :=
  if request.wLength ≠ 0 ∧ ¬request.IsIn then min request.outData.length request.wLength.toNat
  else 0

end Request

/-- All that the device sends on endpoint 0 in answer to a session of requests. -/
def answers : Block → List Request → List (List UInt8)
  | _, [] => []
  | block, request :: rest => (request.answer block).toList ++ answers (request.serve block) rest

/-- What is sent does not depend on what the block held, and lies inside `data`. -/
def NoStaleBytes (buffers : UserBuffers) (requests : List Request) : Prop :=
  ∀ left right : Block,
    answers (usbdCdcEcmInit buffers left) requests =
        answers (usbdCdcEcmInit buffers right) requests ∧
      ∀ bytes ∈ answers (usbdCdcEcmInit buffers left) requests, bytes.length ≤ Field.data.size

/-- Every IN data stage asks for no more than `brought`, or what an OUT data stage has brought
since, and for no more than `data` holds. -/
def Covered : ℕ → List Request → Prop
  | _, [] => True
  | brought, request :: rest =>
      (request.IsIn → request.wLength.toNat ≤ brought ∧ request.wLength.toNat ≤ Field.data.size) ∧
        Covered (max brought request.brings) rest

variable {request : Request} {block left right : Block} {brought address : ℕ}

/-! ## One request -/

theorem answer_of_isIn (isIn : request.IsIn) :
    request.answer block =
      some (load (cdcEcmItfControl block request.bRequest).block 0 request.wLength.toNat) := by
  rcases isIn with ⟨hasData, toHost⟩
  simp [Request.answer, usbdCdcEcmSetupClass, hasData, toHost, Field.data]

theorem answer_of_not_isIn (notIn : ¬request.IsIn) : request.answer block = none := by
  unfold Request.answer usbdCdcEcmSetupClass
  split
  next hasData =>
    split
    next toHost => exact absurd ⟨hasData, toHost⟩ notIn
    next => rfl
  next => rfl

/-- Within `data` the bytes asked for are as they were when the request came. -/
theorem load_answer (block : Block) (cmd : UInt8) {length : ℕ} (inside : length ≤ Field.data.size) :
    load (cdcEcmItfControl block cmd).block 0 length = load block 0 length :=
  (changedIn_control_behindData block cmd).load_eq inside

theorem receive_apply (request : Request) (block : Block) (length : ℕ)
    (inside : address < Field.data.size) :
    request.receive block length address =
      if address < min request.outData.length length then request.outData.getD address 0
      else block address := by
  have stored : store block Field.data.offset (request.outData.take length) address =
      if address < min request.outData.length length then request.outData.getD address 0
      else block address := by
    simp only [store, Field.data, Nat.zero_le, if_true, Nat.sub_zero]
    split
    next brought =>
      have inLength : address < length := by omega
      have inData : address < request.outData.length := by omega
      simp [List.getD, inLength, inData]
    next notBrought =>
      have outside : (request.outData.take length).length ≤ address := by
        rw [List.length_take]
        omega
      rw [List.getElem?_eq_none outside, Option.getD_none]
  rw [← stored]
  unfold Request.receive
  split
  · cases passed : usbdCdcEcmEp0RxReady
      (store block Field.data.offset (request.outData.take length)) with
    | none => rfl
    | some done =>
        exact (changedIn_ep0RxReady passed).apply_eq inside
  · rfl

/-- Inside `data`, a request writes what its OUT data stage brings and nothing else. -/
theorem serve_apply (request : Request) (block : Block) (inside : address < Field.data.size) :
    request.serve block address =
      if address < request.brings then request.outData.getD address 0 else block address := by
  have changed := changedIn_setupClass block request.bmRequest request.bRequest request.wLength
  have kept := changed.apply_eq inside
  by_cases hasOut : request.wLength ≠ 0 ∧ ¬request.IsIn
  · have notToHost : ¬request.bmRequest &&& 0x80 ≠ 0 := fun toHost => hasOut.2 ⟨hasOut.1, toHost⟩
    have receives : (usbdCdcEcmSetupClass block request.bmRequest request.bRequest
        request.wLength).receives = some request.wLength.toNat := by
      unfold usbdCdcEcmSetupClass
      rw [if_pos hasOut.1, if_neg notToHost]
    rw [Request.serve, receives]
    simp only [Request.brings, if_pos hasOut]
    rw [receive_apply _ _ _ inside, kept]
  · have receives : (usbdCdcEcmSetupClass block request.bmRequest request.bRequest
        request.wLength).receives = none := by
      unfold usbdCdcEcmSetupClass
      split
      next hasData =>
        split
        · rfl
        next notToHost =>
          exact absurd ⟨hasData, fun isIn => notToHost isIn.2⟩ hasOut
      · rfl
    rw [Request.serve, receives]
    simp only [Request.brings, if_neg hasOut, Nat.not_lt_zero, if_false]
    exact kept

/-! ## Two sessions -/

/-- The blocks agree on what has been brought, as far as it lies inside `data`. -/
def AgreeTo (brought : ℕ) (left right : Block) : Prop :=
  ∀ address, address < brought → address < Field.data.size → left address = right address

/-- The blocks differ everywhere in `data` behind what has been brought. -/
def DifferFrom (brought : ℕ) (left right : Block) : Prop :=
  ∀ address, brought ≤ address → address < Field.data.size → left address ≠ right address

theorem AgreeTo.serve (agree : AgreeTo brought left right) (request : Request) :
    AgreeTo (max brought request.brings) (request.serve left) (request.serve right) := by
  intro address covered inside
  rw [serve_apply request left inside, serve_apply request right inside]
  split
  · rfl
  · exact agree address (by omega) inside

theorem DifferFrom.serve (differ : DifferFrom brought left right) (request : Request) :
    DifferFrom (max brought request.brings) (request.serve left) (request.serve right) := by
  intro address behind inside
  rw [serve_apply request left inside, serve_apply request right inside,
    if_neg (by omega), if_neg (by omega)]
  exact differ address (by omega) inside

theorem answer_eq_of_agree (agree : AgreeTo brought left right)
    (covered : request.IsIn →
      request.wLength.toNat ≤ brought ∧ request.wLength.toNat ≤ Field.data.size) :
    request.answer left = request.answer right := by
  by_cases isIn : request.IsIn
  · rcases covered isIn with ⟨brought, inside⟩
    rw [answer_of_isIn isIn, answer_of_isIn isIn, load_answer left _ inside,
      load_answer right _ inside]
    apply congrArg some
    apply load_congr
    intro address _ ends
    exact agree address (by omega) (by omega)
  · rw [answer_of_not_isIn isIn, answer_of_not_isIn isIn]

theorem answers_eq_of_covered {requests : List Request} (agree : AgreeTo brought left right)
    (covered : Covered brought requests) : answers left requests = answers right requests := by
  induction requests generalizing brought left right with
  | nil => rfl
  | cons request rest ih =>
      rw [answers, answers, answer_eq_of_agree agree covered.1, ih (agree.serve request) covered.2]

theorem length_of_covered {requests : List Request} (covered : Covered brought requests) :
    ∀ bytes ∈ answers block requests, bytes.length ≤ Field.data.size := by
  induction requests generalizing brought block with
  | nil => simp [answers]
  | cons request rest ih =>
      intro bytes sent
      rcases List.mem_append.mp sent with now | later
      · by_cases isIn : request.IsIn
        · rw [answer_of_isIn isIn] at now
          simp only [Option.toList_some, List.mem_singleton] at now
          rw [now, length_load]
          exact (covered.1 isIn).2
        · rw [answer_of_not_isIn isIn] at now
          cases now
      · exact ih covered.2 bytes later

/-- Where the answers agree, no IN data stage has reached a byte in which the blocks differ. -/
theorem covered_of_answers_eq {requests : List Request} (differ : DifferFrom brought left right)
    (same : answers left requests = answers right requests)
    (inside : ∀ bytes ∈ answers left requests, bytes.length ≤ Field.data.size) :
    Covered brought requests := by
  induction requests generalizing brought left right with
  | nil => trivial
  | cons request rest ih =>
      have next := differ.serve request
      by_cases isIn : request.IsIn
      · simp only [answers, answer_of_isIn isIn, Option.toList_some, List.singleton_append,
          List.cons.injEq] at same
        simp only [answers, answer_of_isIn isIn, Option.toList_some, List.singleton_append,
          List.forall_mem_cons, length_load] at inside
        rcases same with ⟨sameNow, sameLater⟩
        rcases inside with ⟨insideNow, insideLater⟩
        refine ⟨fun _ => ⟨?_, insideNow⟩, ih next sameLater insideLater⟩
        by_contra reaches
        rw [load_answer left _ insideNow, load_answer right _ insideNow] at sameNow
        have asked : brought < request.wLength.toNat := by omega
        have sameByte : left brought = right brought := by
          have atBrought := congrArg (fun bytes => bytes[brought]?) sameNow
          simpa [load, asked] using atBrought
        exact differ brought (Nat.le_refl _) (by omega) sameByte
      · simp only [answers, answer_of_not_isIn isIn, Option.toList_none, List.nil_append]
          at same inside
        exact ⟨fun asks => absurd asks isIn, ih next same inside⟩

theorem covered_of_noStaleBytes {buffers : UserBuffers} {requests : List Request}
    (noStale : NoStaleBytes buffers requests) : Covered 0 requests := by
  rcases noStale (fun _ => 0) (fun _ => 1) with ⟨same, inside⟩
  refine covered_of_answers_eq ?_ same inside
  intro address _ inData
  rw [(changedIn_init buffers _).apply_eq inData, (changedIn_init buffers _).apply_eq inData]
  decide

/-- Nothing stale is sent exactly in the sessions in which no IN data stage asks for more than
the OUT data stages before it have brought, or for more than `data` holds. -/
theorem no_stale_bytes_iff (buffers : UserBuffers) (requests : List Request) :
    NoStaleBytes buffers requests ↔ Covered 0 requests := by
  constructor
  · exact covered_of_noStaleBytes
  · intro covered left right
    refine ⟨answers_eq_of_covered ?_ covered, length_of_covered covered⟩
    intro address noneBrought
    omega

/-- With IN data stages alone, something stale is sent in every session that has one. -/
theorem stale_bytes_of_isIn {buffers : UserBuffers} {request : Request} {rest : List Request}
    (isIn : request.IsIn) : ¬NoStaleBytes buffers (request :: rest) := by
  intro noStale
  have covered := ((covered_of_noStaleBytes noStale).1 isIn).1
  have asks : request.wLength.toNat ≠ 0 := by
    intro none
    exact isIn.1 (UInt16.toNat_inj.mp none)
  omega

/-- `GET_ENCAPSULATED_RESPONSE` to the interface, for one byte. -/
def getEncapsulatedResponse : Request := ⟨0xa1, 0x01, 1, [], true⟩

/-- The byte that answers the first request is the first byte of the block that `malloc` has
returned. -/
theorem no_stale_bytes_violated :
    answers (usbdCdcEcmInit ⟨0x20000000, 0x20001000⟩ fun _ => 0x00) [getEncapsulatedResponse] =
        [[0x00]] ∧
      answers (usbdCdcEcmInit ⟨0x20000000, 0x20001000⟩ fun _ => 0xa5) [getEncapsulatedResponse] =
        [[0xa5]] ∧
      ¬NoStaleBytes ⟨0x20000000, 0x20001000⟩ [getEncapsulatedResponse] := by
  have zero : answers (usbdCdcEcmInit ⟨0x20000000, 0x20001000⟩ fun _ => 0x00)
      [getEncapsulatedResponse] = [[0x00]] := by
    decide +kernel
  have stale : answers (usbdCdcEcmInit ⟨0x20000000, 0x20001000⟩ fun _ => 0xa5)
      [getEncapsulatedResponse] = [[0xa5]] := by
    decide +kernel
  refine ⟨zero, stale, ?_⟩
  intro noStale
  have same := (noStale (fun _ => 0x00) fun _ => 0xa5).1
  rw [zero, stale] at same
  simp at same

end MqttAccelero.Usb.Control
