/-! # UTF-8

`decode?` reads bytes that are valid UTF-8 throughout. `decodeLossy` reads any bytes: each maximal
part that starts a character and does not complete it, and each byte that starts none, becomes one
replacement character.
-/
namespace ClusterWatch.Text

/-- What a first byte demands: the range of the second byte, the number of bytes after that, and the
bits that the first byte contributes. -/
structure Lead where
  low : UInt8
  high : UInt8
  more : Nat
  bits : Nat

def lead? (b : UInt8) : Option Lead :=
  let n := b.toNat
  if 0xc2 ≤ n ∧ n ≤ 0xdf then some ⟨0x80, 0xbf, 0, n - 0xc0⟩
  else if n = 0xe0 then some ⟨0xa0, 0xbf, 1, n - 0xe0⟩
  else if n = 0xed then some ⟨0x80, 0x9f, 1, n - 0xe0⟩
  else if 0xe1 ≤ n ∧ n ≤ 0xef then some ⟨0x80, 0xbf, 1, n - 0xe0⟩
  else if n = 0xf0 then some ⟨0x90, 0xbf, 2, n - 0xf0⟩
  else if 0xf1 ≤ n ∧ n ≤ 0xf3 then some ⟨0x80, 0xbf, 2, n - 0xf0⟩
  else if n = 0xf4 then some ⟨0x80, 0x8f, 2, n - 0xf0⟩
  else none

def addBits (code : Nat) (b : UInt8) : Nat := code * 64 + b.toNat % 64

/-- Reads so many continuation bytes. Gives the code point, if all are there, and the rest. -/
def continuations : Nat → (code : Nat) → List UInt8 → Option Nat × List UInt8
  | 0, code, bytes => (some code, bytes)
  | _ + 1, _, [] => (none, [])
  | n + 1, code, b :: bytes =>
    if 0x80 ≤ b ∧ b ≤ 0xbf then continuations n (addBits code b) bytes else (none, b :: bytes)

/-- Reads the character that starts with a byte. Gives it, if it is complete, and the rest. -/
def decodeOne (b : UInt8) (bytes : List UInt8) : Option Char × List UInt8 :=
  if b < 0x80 then (some (Char.ofNat b.toNat), bytes)
  else match lead? b, bytes with
    | some lead, c :: rest =>
      if lead.low ≤ c ∧ c ≤ lead.high then
        let (code, rest) := continuations lead.more (addBits lead.bits c) rest
        (code.map Char.ofNat, rest)
      else (none, bytes)
    | _, _ => (none, bytes)

theorem length_continuations_le (n code : Nat) (bytes : List UInt8) :
    (continuations n code bytes).2.length ≤ bytes.length := by
  induction n generalizing code bytes with
  | zero => simp [continuations]
  | succ n ih =>
    cases bytes with
    | nil => simp [continuations]
    | cons b bytes =>
      rw [continuations]
      split
      · exact Nat.le_succ_of_le (ih _ _)
      · simp

theorem length_decodeOne_le (b : UInt8) (bytes : List UInt8) :
    (decodeOne b bytes).2.length ≤ bytes.length := by
  unfold decodeOne
  split
  · simp
  · split
    · split
      · exact Nat.le_succ_of_le (length_continuations_le _ _ _)
      · simp
    · simp

def replacement : Char := '\ufffd'

def decodeLossy : List UInt8 → List Char
  | [] => []
  | b :: bytes => (decodeOne b bytes).1.getD replacement :: decodeLossy (decodeOne b bytes).2
termination_by bytes => bytes.length
decreasing_by
  have := length_decodeOne_le b bytes
  simp only [List.length_cons]
  omega

def decode? : List UInt8 → Option (List Char)
  | [] => some []
  | b :: bytes =>
    match (decodeOne b bytes).1 with
    | none => none
    | some c => (decode? (decodeOne b bytes).2).map (c :: ·)
termination_by bytes => bytes.length
decreasing_by
  have := length_decodeOne_le b bytes
  simp only [List.length_cons]
  omega

def encode (cs : List Char) : List UInt8 := cs.flatMap String.utf8EncodeChar

end ClusterWatch.Text
