import MqttAccelero.Lib.Varint

/-!
# Control packets on the wire

A control packet is one byte, the length of what follows, and what follows. Both
sides of a connection exchange such packets back to back, cut by TCP wherever it
likes, so a reader has seen the initial part of a stream at any time.
-/

namespace MqttAccelero.Mqtt

/-- The length of a body takes four bytes at most. -/
structure Packet where
  control : UInt8
  body : List UInt8
  fits : body.length < 128 ^ 4
deriving DecidableEq

namespace Packet

def header (packet : Packet) : List UInt8 :=
  packet.control :: Varint.encode 4 packet.body.length

def encode (packet : Packet) : List UInt8 :=
  packet.header ++ packet.body

/-- The bytes of packets sent one after the other. -/
def encodeAll (packets : List Packet) : List UInt8 :=
  packets.flatMap encode

/-- The first packet of a stream, and what follows it. -/
def read : List UInt8 → Option (Packet × List UInt8)
  | [] => none
  | control :: rest =>
      (Varint.decode rest).bind fun (length, rest) =>
        if fits : length < 128 ^ 4 then
          if length ≤ rest.length then
            some (⟨control, rest.take length, Nat.lt_of_le_of_lt (List.length_take_le _ _) fits⟩,
              rest.drop length)
          else none
        else none

def readUpTo : ℕ → List UInt8 → List Packet
  | 0, _ => []
  | count + 1, bytes =>
      match read bytes with
      | none => []
      | some (packet, rest) => packet :: readUpTo count rest

/-- The packets that have arrived completely. -/
def readAll (bytes : List UInt8) : List Packet :=
  readUpTo bytes.length bytes

variable {packet : Packet} {packets : List Packet} {bytes rest : List UInt8}

theorem encode_ne_nil (packet : Packet) : encode packet ≠ [] :=
  List.cons_ne_nil _ _

theorem length_encode (packet : Packet) :
    (encode packet).length = packet.header.length + packet.body.length :=
  List.length_append

theorem length_header (packet : Packet) :
    packet.header.length = 1 + (Varint.encode 4 packet.body.length).length := by
  rw [header, List.length_cons, Nat.add_comm]

/-- The fixed header has two to five bytes. -/
theorem header_bounds (packet : Packet) :
    2 ≤ packet.header.length ∧ packet.header.length ≤ 5 := by
  have some : 0 < (Varint.encode 4 packet.body.length).length := Varint.length_encode_pos
  have few : (Varint.encode 4 packet.body.length).length ≤ 4 := Varint.length_encode_le
  rw [length_header]
  omega

theorem drop_header {index : ℕ} (below : index + 1 < packet.header.length) :
    packet.header.drop (index + 1) =
      Varint.encode (4 - index) (packet.body.length / 128 ^ index) := by
  rw [length_header] at below
  rw [header, List.drop_succ_cons, Varint.drop_encode (by omega)]

/-- A byte of the header behind the first holds a group of the length, and says whether it is the
last one. -/
theorem group {index : ℕ} {byte : UInt8} (isByte : packet.header[index + 1]? = some byte) :
    byte.toNat % 128 = packet.body.length / 128 ^ index % 128 ∧
      (byte.toNat < 128 ↔ index + 2 = packet.header.length) ∧
      (byte.toNat < 128 → packet.body.length / 128 ^ index < 128) := by
  have below := (List.getElem?_eq_some_iff.mp isByte).1
  have few : index ≤ 3 := by
    have bounds := packet.header_bounds
    omega
  have rest := drop_header below
  have head : (packet.header.drop (index + 1)).head? = some byte := by
    rw [List.head?_drop, isByte]
  have length := congrArg List.length rest
  rw [List.length_drop] at length
  rw [rest] at head
  have passes : 4 - index = 3 - index + 1 := by omega
  rw [passes] at head length
  by_cases small : packet.body.length / 128 ^ index < 128
  · rw [Varint.encode_small small] at head length
    rw [List.length_singleton] at length
    obtain rfl : UInt8.ofNat (packet.body.length / 128 ^ index) = byte := Option.some.inj head
    rw [Varint.toNat_last small]
    exact ⟨rfl, ⟨fun _ => by omega, fun _ => small⟩, fun _ => small⟩
  · have notLast : index ≠ 3 := by
      rintro rfl
      exact small (Nat.div_lt_of_lt_mul packet.fits)
    have more : 0 < (Varint.encode (3 - index) (packet.body.length / 128 ^ index / 128)).length := by
      have passesLeft : 3 - index = 2 - index + 1 := by omega
      rw [passesLeft]
      exact Varint.length_encode_pos
    rw [Varint.encode_large small] at head length
    rw [List.length_cons] at length
    obtain rfl := Option.some.inj head
    rw [Varint.toNat_group]
    omega

@[simp]
theorem encodeAll_nil : encodeAll [] = [] := rfl

@[simp]
theorem encodeAll_cons : encodeAll (packet :: packets) = encode packet ++ encodeAll packets := rfl

theorem read_body (packet : Packet) (arrived : List UInt8) :
    read (packet.header ++ arrived) =
      if packet.body.length ≤ arrived.length then
        some (⟨packet.control, arrived.take packet.body.length,
            Nat.lt_of_le_of_lt (List.length_take_le _ _) packet.fits⟩,
          arrived.drop packet.body.length)
      else none := by
  rw [header, List.cons_append, read, Varint.decode_encode packet.fits]
  simp only [Option.bind_some, packet.fits, dite_true]

theorem read_encode (packet : Packet) (rest : List UInt8) :
    read (encode packet ++ rest) = some (packet, rest) := by
  have whole : packet.body.length ≤ (packet.body ++ rest).length := by simp
  rw [encode, List.append_assoc, read_body, if_pos whole]
  simp

/-- A packet of which something is missing is not read. -/
theorem read_initial (split : bytes ++ rest = encode packet) (cut : rest ≠ []) :
    read bytes = none := by
  cases bytes with
  | nil => rfl
  | cons control bytes =>
      rw [encode, header, List.cons_append, List.cons_append, List.cons.injEq] at split
      rcases split with ⟨rfl, splitRest⟩
      by_cases headed : Varint.encode 4 packet.body.length <+: bytes
      · rcases headed with ⟨arrived, rfl⟩
        rw [List.append_assoc, List.append_cancel_left_eq] at splitRest
        have missing := List.length_pos_of_ne_nil cut
        have total := congrArg List.length splitRest
        rw [List.length_append] at total
        rw [← List.cons_append, ← header, read_body, if_neg (by omega)]
      · rcases List.append_eq_append_iff.mp splitRest with ⟨more, short, _⟩ | ⟨arrived, long, _⟩
        · have unheaded : more ≠ [] := by
            rintro rfl
            exact headed ⟨[], by simpa using short⟩
          rw [read, Varint.decode_initial packet.fits short.symm unheaded, Option.bind_none]
        · exact absurd ⟨arrived, long.symm⟩ headed

/-- What has arrived of a stream of packets are the first of them. -/
theorem readUpTo_initial {count : ℕ} (initial : bytes <+: encodeAll packets) :
    readUpTo count bytes <+: packets := by
  induction packets generalizing count bytes with
  | nil =>
      rw [encodeAll_nil, List.prefix_nil] at initial
      rw [initial]
      cases count <;> exact List.prefix_refl []
  | cons packet packets ih =>
      cases count with
      | zero => exact List.nil_prefix
      | succ count =>
          rw [encodeAll_cons] at initial
          rcases initial with ⟨missing, split⟩
          by_cases complete : encode packet <+: bytes
          · rcases complete with ⟨arrived, rfl⟩
            rw [List.append_assoc, List.append_cancel_left_eq] at split
            rw [readUpTo, read_encode]
            exact (List.prefix_cons_inj packet).mpr (ih ⟨missing, split⟩)
          · rcases List.append_eq_append_iff.mp split with ⟨more, short, _⟩ | ⟨arrived, long, _⟩
            · have cut : more ≠ [] := by
                rintro rfl
                exact complete ⟨[], by simpa using short⟩
              rw [readUpTo, read_initial short.symm cut]
              exact List.nil_prefix
            · exact absurd ⟨arrived, long.symm⟩ complete

theorem readUpTo_append {more : ℕ} :
    readUpTo (packets.length + more) (encodeAll packets ++ bytes) =
      packets ++ readUpTo more bytes := by
  induction packets with
  | nil => rw [List.length_nil, Nat.zero_add, encodeAll_nil, List.nil_append, List.nil_append]
  | cons packet packets ih =>
      rw [List.length_cons, Nat.succ_add, encodeAll_cons, List.append_assoc, readUpTo, read_encode]
      exact congrArg _ ih

theorem length_le_length_encodeAll : packets.length ≤ (encodeAll packets).length := by
  induction packets with
  | nil => exact Nat.le_refl 0
  | cons packet packets ih =>
      have some := List.length_pos_of_ne_nil (encode_ne_nil packet)
      rw [encodeAll_cons, List.length_append, List.length_cons]
      omega

theorem readAll_initial (initial : bytes <+: encodeAll packets) : readAll bytes <+: packets :=
  readUpTo_initial initial

/-- The packets in front of one that has not arrived completely. -/
theorem readAll_append (incomplete : read bytes = none) :
    readAll (encodeAll packets ++ bytes) = packets := by
  have enough := @length_le_length_encodeAll packets
  have total := @List.length_append _ (encodeAll packets) bytes
  rcases Nat.exists_eq_add_of_le (Nat.le_trans enough (total ▸ Nat.le_add_right _ _)) with
    ⟨more, length⟩
  have nothing : readUpTo more bytes = [] := by
    cases more with
    | zero => rfl
    | succ more => rw [readUpTo, incomplete]
  rw [readAll, length, readUpTo_append, nothing, List.append_nil]

end Packet

end MqttAccelero.Mqtt
