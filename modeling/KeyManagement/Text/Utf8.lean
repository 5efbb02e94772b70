import KeyManagement.Bytes

/-! # Lenient UTF-8

Bytes that are not UTF-8 are read with one replacement character for each longest run that
begins a character but does not end it, and for each byte that cannot begin one.
-/

namespace KeyManagement.Text

def isContinuation (b : UInt8) : Bool := 0x80 ≤ b && b < 0xc0

/-- How many bytes follow a leading byte, and the range of the first of them. -/
def leading? (b : UInt8) : Option (Nat × UInt8 × UInt8) :=
  if 0xc2 ≤ b && b ≤ 0xdf then some (1, 0x80, 0xbf)
  else if b = 0xe0 then some (2, 0xa0, 0xbf)
  else if b = 0xed then some (2, 0x80, 0x9f)
  else if 0xe1 ≤ b && b ≤ 0xef then some (2, 0x80, 0xbf)
  else if b = 0xf0 then some (3, 0x90, 0xbf)
  else if b = 0xf4 then some (3, 0x80, 0x8f)
  else if 0xf1 ≤ b && b ≤ 0xf3 then some (3, 0x80, 0xbf)
  else none

/-- How many of the bytes after a leading byte go on as its character does. -/
def runLength (following : Nat) (first last : UInt8) : Bytes → Nat
  | [] => 0
  | b :: rest =>
    if first ≤ b && b ≤ last then
      1 + ((rest.take (following - 1)).takeWhile isContinuation).length
    else 0

/-- Reads bytes as text, with replacement characters where they are not UTF-8. -/
def ofBytesLenient : Bytes → List Char
  | [] => []
  | b :: rest =>
    if b < 0x80 then Char.ofNat b.toNat :: ofBytesLenient rest
    else match leading? b with
      | none => '\ufffd' :: ofBytesLenient rest
      | some (following, first, last) =>
        let run := runLength following first last rest
        let head :=
          if run = following then
            ((Bytes.toText? (b :: rest.take run)).getD "").toList
          else ['\ufffd']
        head ++ ofBytesLenient (rest.drop run)
  termination_by bytes => bytes.length
  decreasing_by all_goals simp_wf; try omega

end KeyManagement.Text
